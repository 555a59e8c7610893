import AurixVoice.Library.Buffer
import AurixVoice.Library.Checked

/-! X25519 of the Unity SDK. C# wraps silently at an overflow; here an overflow ends the computation. -/

namespace AurixVoice.Unity.X25519

abbrev Bytes := List UInt8

abbrev Limbs := Vector Int64 16

def zeros : Limbs := Vector.replicate 16 0

def const121665 : Limbs := #v[0xDB41, 1, 0, 0, 0, 0, 0, 0, 0, 0, 0, 0, 0, 0, 0, 0]

def basePoint : Bytes := 9 :: List.replicate 31 0

def nextLimb (i : ℕ) : ℕ := (i + 1) * if i < 15 then 1 else 0

def carryStep (o : Limbs) (i : ℕ) : Option Limbs := do
  let oi ← Long.add (wordAt o i) ((1 : Int64) <<< 16)
  let o := o.setIfInBounds i oi
  let c := wordAt o i >>> 16
  let d ← Long.sub c 1
  let d' ← Long.mul (← Long.mul 37 d) (if i = 15 then 1 else 0)
  let on ← Long.add (wordAt o (nextLimb i)) (← Long.add d d')
  let o := o.setIfInBounds (nextLimb i) on
  let oi ← Long.sub (wordAt o i) (← Long.shl c 16)
  some (o.setIfInBounds i oi)

def carry (o : Limbs) : Option Limbs := (List.range 16).foldlM carryStep o

def select (p q : Limbs) (b : Int64) : Option (Limbs × Limbs) := do
  let c := ~~~(← Long.sub b 1)
  let t := Vector.zipWith (fun x y => c &&& (x ^^^ y)) p q
  some (Vector.zipWith (· ^^^ ·) p t, Vector.zipWith (· ^^^ ·) q t)

def borrow (m : Limbs) (i : ℕ) : Int64 := (wordAt m i >>> 16) &&& 1

def borrowStep (t m : Limbs) (i : ℕ) : Option Limbs := do
  let mi ← Long.sub (← Long.sub (wordAt t i) 0xffff) (borrow m (i - 1))
  let m := m.setIfInBounds i mi
  some (m.setIfInBounds (i - 1) (wordAt m (i - 1) &&& 0xffff))

def reduceStep (t m : Limbs) : Option (Limbs × Limbs) := do
  let m := m.setIfInBounds 0 (← Long.sub (wordAt t 0) 0xffed)
  let m ← (List.range 14).foldlM (fun m k => borrowStep t m (k + 1)) m
  let m := m.setIfInBounds 15 (← Long.sub (← Long.sub (wordAt t 15) 0x7fff) (borrow m 14))
  let b := borrow m 15
  let m := m.setIfInBounds 14 (wordAt m 14 &&& 0xffff)
  select t m (← Long.sub 1 b)

def pack (n : Limbs) : Option Bytes := do
  let t ← carry n
  let t ← carry t
  let t ← carry t
  let (t, m) ← reduceStep t zeros
  let (t, _) ← reduceStep t m
  some ((List.range 16).flatMap fun i =>
    [(wordAt t i &&& 0xff).toUInt64.toUInt8, (wordAt t i >>> 8).toUInt64.toUInt8])

def unpack (n : Bytes) : Option Limbs := do
  let o ← fill 16 fun i => do
    Long.add (Int64.ofNat (byteAt n (2 * i)).toNat) (← Long.shl (Int64.ofNat (byteAt n (2 * i + 1)).toNat) 8)
  some (o.setIfInBounds 15 (wordAt o 15 &&& 0x7fff))

def add (a b : Limbs) : Option Limbs := fill 16 fun i => Long.add (wordAt a i) (wordAt b i)

def sub (a b : Limbs) : Option Limbs := fill 16 fun i => Long.sub (wordAt a i) (wordAt b i)

def productStep (a b : Limbs) (i : ℕ) (t : Vector Int64 31) (j : ℕ) : Option (Vector Int64 31) := do
  let x ← Long.add (wordAt t (i + j)) (← Long.mul (wordAt a i) (wordAt b j))
  some (t.setIfInBounds (i + j) x)

def foldStep (t : Vector Int64 31) (i : ℕ) : Option (Vector Int64 31) := do
  let x ← Long.add (wordAt t i) (← Long.mul 38 (wordAt t (i + 16)))
  some (t.setIfInBounds i x)

def mul (a b : Limbs) : Option Limbs := do
  let t ← (List.range 16).foldlM (fun t i => (List.range 16).foldlM (productStep a b i) t) (Vector.replicate 31 0)
  let t ← (List.range 15).foldlM foldStep t
  let o ← fill 16 fun i => some (wordAt t i)
  let o ← carry o
  carry o

def invertLoop (i : Limbs) : ℕ → Limbs → Option Limbs
  | 0, c => some c
  | a + 1, c => do
    let c ← mul c c
    let c ← if a ≠ 2 ∧ a ≠ 4 then mul c i else some c
    invertLoop i a c

def invert (i : Limbs) : Option Limbs := invertLoop i 254 i

structure Points where
  a : Limbs
  b : Limbs
  c : Limbs
  d : Limbs

def ladderStep (x : Limbs) (s : Points) (r : Int64) : Option Points := do
  let (a, b) ← select s.a s.b r
  let (c, d) ← select s.c s.d r
  let e ← add a c
  let a ← sub a c
  let c ← add b d
  let b ← sub b d
  let d ← mul e e
  let f ← mul a a
  let a ← mul c a
  let c ← mul b e
  let e ← add a c
  let a ← sub a c
  let b ← mul a a
  let c ← sub d f
  let a ← mul c const121665
  let a ← add a d
  let c ← mul c a
  let a ← mul d f
  let d ← mul b x
  let b ← mul e e
  let (a, b) ← select a b r
  let (c, d) ← select c d r
  some ⟨a, b, c, d⟩

def bit (z : Bytes) (i : ℕ) : Int64 := Int64.ofNat (((byteAt z (i >>> 3)).toNat >>> (i &&& 7)) &&& 1)

def ladder (x : Limbs) (z : Bytes) : ℕ → Points → Option Points
  | 0, s => some s
  | i + 1, s => do
    let s ← ladderStep x s (bit z i)
    ladder x z i s

def clamp (scalar : Bytes) : Bytes :=
  let z := scalar.set 31 ((byteAt scalar 31 &&& 127) ||| 64)
  z.set 0 (byteAt z 0 &&& 248)

def multiply (scalar point : Bytes) : Option Bytes := do
  let z := clamp scalar
  let x ← unpack point
  let s ← ladder x z 255 ⟨zeros.setIfInBounds 0 1, x, zeros, zeros.setIfInBounds 0 1⟩
  let c ← invert s.c
  let a ← mul s.a c
  pack a

inductive Failure
  | argument (message : String)
  | overflow
  deriving DecidableEq

def scalarMult (scalar point : Bytes) : Except Failure Bytes :=
  if scalar.length ≠ 32 then .error (.argument "scalar must be 32 bytes")
  else if point.length ≠ 32 then .error (.argument "point must be 32 bytes")
  else
    match multiply scalar point with
    | none => .error .overflow
    | some q => .ok q

end AurixVoice.Unity.X25519
