import Mathlib.Algebra.Order.Field.Rat
import AurixVoice.Media.Routing

/-! What ducking and slot tables do to one frame. Gains are rationals, instants numbers of nanoseconds. -/

namespace AurixVoice.Media

structure AmbientConfig where
  maxVoices : UInt8
  ambientGain : ℚ

structure Voice where
  volume : ℚ
  lastSeen : ℕ
  focused : Bool

abbrev Voices := Dict UserId Voice

def voiceHold : ℕ := 400 * 10 ^ 6

def stickiness : ℚ := 6 / 5

def Voice.weight (v : Voice) : ℚ := if v.focused then v.volume * stickiness else v.volume

def louder (a b : ℚ × UserId) : Bool := decide (b.1 < a.1 ∨ a.1 = b.1 ∧ a.2 ≤ b.2)

namespace Voices

def heard (voices : Voices) (sender : UserId) (volume : ℚ) (now : ℕ) : Voices :=
  let voices := Dict.filterValues voices fun v => decide (now - v.lastSeen < voiceHold)
  voices.set sender ⟨volume, now, (voices.find sender).any Voice.focused⟩

def slotHolders (voices : Voices) (slots : ℕ) : List UserId :=
  let ranked := (voices.entries.map fun e => (e.2.weight, e.1)).mergeSort louder
  (ranked.take slots).map Prod.snd

def gate (voices : Voices) (sender : UserId) (volume : ℚ) (cfg : AmbientConfig) (now : ℕ) : ℚ × Voices :=
  let voices := voices.heard sender volume now
  let slots := max cfg.maxVoices.toNat 1
  if voices.keys.card ≤ slots then (1, voices.mapValues fun v => { v with focused := true })
  else
    let holders := voices.slotHolders slots
    let voices := Dict.tabulate voices.keys fun user =>
      (voices.find user).map fun v => { v with focused := decide (user ∈ holders) }
    (if sender ∈ holders then 1 else cfg.ambientGain, voices)

end Voices

structure DuckingConfig where
  gain : ℚ
  attackMs : UInt32
  releaseMs : UInt32
  holdMs : UInt32
  moderators : Bool

structure DuckEnvelope where
  depth : ℚ
  updated : Option ℕ
  heldUntil : Option ℕ

namespace DuckEnvelope

variable (env : DuckEnvelope) (now : ℕ)

def clamp (lo hi x : ℚ) : ℚ := if x < lo then lo else if hi < x then hi else x

def ramp (target : ℚ) (elapsed : ℕ) (cfg : DuckingConfig) : DuckEnvelope :=
  let elapsedMs : ℚ := elapsed / 10 ^ 6
  let rampMs : ℚ := if env.depth < target then cfg.attackMs.toNat else cfg.releaseMs.toNat
  if rampMs ≤ 0 then { env with depth := target }
  else
    let step := min (elapsedMs / rampMs) 1
    { env with depth := env.depth + clamp (-step) step (target - env.depth) }

def isActive : Bool := env.heldUntil.any fun t => decide (now < t)

def target : ℚ := if env.isActive now then 1 else 0

def advance (cfg : DuckingConfig) : DuckEnvelope :=
  match env.updated with
  | none => { env with depth := env.target now, updated := some now }
  | some updated =>
    -- A hold that ended between two frames: attack up to its end, release from there.
    let env := match env.heldUntil.filter fun held => decide (updated < held ∧ held ≤ now) with
      | some held => (env.ramp 1 (held - updated) cfg).ramp 0 (now - held) cfg
      | none => env.ramp (env.target now) (now - updated) cfg
    { env with updated := some now }

def trigger (cfg : DuckingConfig) : DuckEnvelope :=
  { env.advance now cfg with heldUntil := some (now + cfg.holdMs.toNat * 10 ^ 6) }

def gainAt (cfg : DuckingConfig) : ℚ × DuckEnvelope :=
  let env := env.advance now cfg
  (1 - env.depth * (1 - cfg.gain), env)

end DuckEnvelope

end AurixVoice.Media
