import AurixVoice.Library.Traces
import Mathlib.Data.Rat.Floor

/-!
The quality totals of a session, as `QualityAccumulator` in `types.rs` keeps them and as a summary hands them
to the node that resumes the session. Floats are rationals and counters natural numbers.
-/

namespace AurixVoice.Quality

structure NetworkQuality where
  bars : UInt8
  rFactor : ℚ
  mos : ℚ
  rttMs : ℚ
  downlinkJitterMs : ℚ
  downlinkLossPercent : ℚ
  uplinkJitterMs : ℚ
  uplinkLossPercent : ℚ
  audioMos : Option ℚ
  concealedPercent : ℚ
  deriving DecidableEq

structure QualitySummary where
  samples : ℕ
  seconds : ℚ
  mosAvg : ℚ
  mosMin : ℚ
  mosLast : ℚ
  rFactorAvg : ℚ
  rttAvgMs : ℚ
  rttMaxMs : ℚ
  jitterAvgMs : ℚ
  lossAvgPercent : ℚ
  lossMaxPercent : ℚ
  bars : Vector ℕ 5
  poorSeconds : ℚ
  mosAlerts : ℕ
  audioSamples : ℕ
  audioMosAvg : Option ℚ
  audioMosMin : Option ℚ
  audioMosLast : Option ℚ
  concealedAvgPercent : Option ℚ
  last : Option NetworkQuality
  deriving DecidableEq

structure QualityDelta where
  samples : ℕ := 0
  mosMilli : ℕ := 0
  rttMs : ℕ := 0
  jitterMs : ℕ := 0
  lossPermille : ℕ := 0
  poorSamples : ℕ := 0
  audioSamples : ℕ := 0
  audioMosMilli : ℕ := 0
  concealedPermille : ℕ := 0

structure QualityAccumulator where
  samples : ℕ := 0
  seconds : ℚ := 0
  mosSum : ℚ := 0
  mosMin : ℚ := 0
  rSum : ℚ := 0
  rttSum : ℚ := 0
  rttMax : ℚ := 0
  jitterSum : ℚ := 0
  lossSum : ℚ := 0
  lossMax : ℚ := 0
  bars : Vector ℕ 5 := Vector.replicate 5 0
  poorSeconds : ℚ := 0
  mosAlerts : ℕ := 0
  audioSamples : ℕ := 0
  audioMosSum : ℚ := 0
  audioMosMin : ℚ := 0
  concealedSum : ℚ := 0
  last : Option NetworkQuality := none
  pending : QualityDelta := {}

variable (q : NetworkQuality)

def clampRound (x high scale : ℚ) : ℕ := ⌊max 0 (min x high) * scale + 1 / 2⌋₊

def NetworkQuality.jitter : ℚ := max q.downlinkJitterMs q.uplinkJitterMs

def NetworkQuality.loss : ℚ := max q.downlinkLossPercent q.uplinkLossPercent

def NetworkQuality.bar : Fin 5 :=
  ⟨max 1 (min q.bars.toNat 5) - 1, by omega⟩

def NetworkQuality.poor : Bool := q.bars ≤ 2

namespace QualityAccumulator

def fromSummary (s : QualitySummary) : QualityAccumulator where
  samples := s.samples
  seconds := max s.seconds 0
  mosSum := s.mosAvg * s.samples
  mosMin := s.mosMin
  rSum := s.rFactorAvg * s.samples
  rttSum := s.rttAvgMs * s.samples
  rttMax := s.rttMaxMs
  jitterSum := s.jitterAvgMs * s.samples
  lossSum := s.lossAvgPercent * s.samples
  lossMax := s.lossMaxPercent
  bars := s.bars
  poorSeconds := max s.poorSeconds 0
  mosAlerts := s.mosAlerts
  audioSamples := s.audioSamples
  audioMosSum := s.audioMosAvg.getD 0 * s.audioSamples
  audioMosMin := s.audioMosMin.getD 5
  concealedSum := s.concealedAvgPercent.getD 0 * s.audioSamples
  last := s.last
  pending := {}

variable (acc : QualityAccumulator)

def recordPending (q : NetworkQuality) : QualityDelta :=
  let p := acc.pending
  { p with
    samples := p.samples + 1
    mosMilli := p.mosMilli + clampRound q.mos 5 1000
    rttMs := p.rttMs + clampRound q.rttMs 60000 1
    jitterMs := p.jitterMs + clampRound q.jitter 60000 1
    lossPermille := p.lossPermille + clampRound q.loss 100 10
    poorSamples := if q.poor then p.poorSamples + 1 else p.poorSamples }

def recordAudio (q : NetworkQuality) : QualityAccumulator :=
  match q.audioMos with
  | none => acc
  | some a =>
    { acc with
      audioMosMin := if acc.audioSamples = 0 then a else min acc.audioMosMin a
      audioSamples := acc.audioSamples + 1
      audioMosSum := acc.audioMosSum + a
      concealedSum := acc.concealedSum + q.concealedPercent
      pending :=
        { acc.pending with
          audioSamples := acc.pending.audioSamples + 1
          audioMosMilli := acc.pending.audioMosMilli + clampRound a 5 1000
          concealedPermille := acc.pending.concealedPermille + clampRound q.concealedPercent 100 10 } }

def recordNetwork (q : NetworkQuality) (period : ℚ) : QualityAccumulator :=
  { acc with
    mosMin := if acc.samples = 0 then q.mos else min acc.mosMin q.mos
    samples := acc.samples + 1
    seconds := acc.seconds + period
    mosSum := acc.mosSum + q.mos
    rSum := acc.rSum + q.rFactor
    rttSum := acc.rttSum + q.rttMs
    rttMax := max acc.rttMax q.rttMs
    jitterSum := acc.jitterSum + q.jitter
    lossSum := acc.lossSum + q.loss
    lossMax := max acc.lossMax q.loss
    bars := acc.bars.set q.bar (acc.bars.get q.bar + 1)
    poorSeconds := if q.poor then acc.poorSeconds + period else acc.poorSeconds
    last := some q
    pending := acc.recordPending q }

/-- `periodSecs` is `none` where the source's is not finite. -/
def record (q : NetworkQuality) (periodSecs : Option ℚ) : QualityAccumulator :=
  (acc.recordNetwork q (max (periodSecs.getD 0) 0)).recordAudio q

def noteMosAlert : QualityAccumulator := { acc with mosAlerts := min (acc.mosAlerts + 1) (2 ^ 32 - 1) }

def takeUnmetered : QualityDelta × QualityAccumulator := (acc.pending, { acc with pending := {} })

def avg (sum : ℚ) : ℚ := if acc.samples = 0 then 0 else sum / acc.samples

def audioAvg (sum : ℚ) : Option ℚ := if 0 < acc.audioSamples then some (sum / acc.audioSamples) else none

def summary : QualitySummary where
  samples := acc.samples
  seconds := acc.seconds
  mosAvg := acc.avg acc.mosSum
  mosMin := acc.mosMin
  mosLast := (acc.last.map NetworkQuality.mos).getD 0
  rFactorAvg := acc.avg acc.rSum
  rttAvgMs := acc.avg acc.rttSum
  rttMaxMs := acc.rttMax
  jitterAvgMs := acc.avg acc.jitterSum
  lossAvgPercent := acc.avg acc.lossSum
  lossMaxPercent := acc.lossMax
  bars := acc.bars
  poorSeconds := acc.poorSeconds
  mosAlerts := acc.mosAlerts
  audioSamples := acc.audioSamples
  audioMosAvg := acc.audioAvg acc.audioMosSum
  audioMosMin := if 0 < acc.audioSamples then some acc.audioMosMin else none
  audioMosLast := acc.last.bind NetworkQuality.audioMos
  concealedAvgPercent := acc.audioAvg acc.concealedSum
  last := acc.last

end QualityAccumulator

inductive QualityCall
  | record (q : NetworkQuality) (periodSecs : Option ℚ)
  | noteMosAlert
  | takeUnmetered

def QualityAccumulator.call (acc : QualityAccumulator) : QualityCall → QualityAccumulator
  | .record q periodSecs => acc.record q periodSecs
  | .noteMosAlert => acc.noteMosAlert
  | .takeUnmetered => acc.takeUnmetered.2

namespace QualityAccumulator

/-- Nothing is summed before the first sample, and times do not shrink. -/
structure Sound (acc : QualityAccumulator) : Prop where
  seconds : 0 ≤ acc.seconds
  poorSeconds : 0 ≤ acc.poorSeconds
  sums : acc.samples = 0 → acc.mosSum = 0 ∧ acc.rSum = 0 ∧ acc.rttSum = 0 ∧ acc.jitterSum = 0 ∧ acc.lossSum = 0
  audioSums : acc.audioSamples = 0 → acc.audioMosSum = 0 ∧ acc.concealedSum = 0

/-- Without what is not metered yet and an audio minimum of no sample, which no summary shows. -/
def forget (acc : QualityAccumulator) : QualityAccumulator :=
  { acc with
    audioMosMin := if acc.audioSamples = 0 then 0 else acc.audioMosMin
    pending := {} }

variable {acc other : QualityAccumulator}

lemma Sound.recordAudio (h : acc.Sound) (q : NetworkQuality) : (acc.recordAudio q).Sound := by
  unfold QualityAccumulator.recordAudio
  split
  · exact h
  · exact ⟨h.seconds, h.poorSeconds, h.sums, nofun⟩

lemma Sound.call (h : acc.Sound) (c : QualityCall) : (acc.call c).Sound := by
  cases c with
  | record q periodSecs =>
    have hperiod : 0 ≤ max (periodSecs.getD 0) 0 := le_max_right ..
    apply Sound.recordAudio
    refine ⟨add_nonneg h.seconds hperiod, ?_, nofun, h.audioSums⟩
    simp only [recordNetwork]
    split
    · exact add_nonneg h.poorSeconds hperiod
    · exact h.poorSeconds
  | noteMosAlert | takeUnmetered => exact ⟨h.seconds, h.poorSeconds, h.sums, h.audioSums⟩

lemma avg_mul_samples {sum : ℚ} (h : acc.samples = 0 → sum = 0) : acc.avg sum * acc.samples = sum := by
  unfold avg
  split
  next hzero => rw [h hzero, zero_mul]
  next hne => exact div_mul_cancel₀ sum (Nat.cast_ne_zero.mpr hne)

lemma audioAvg_mul_samples {sum : ℚ} (h : acc.audioSamples = 0 → sum = 0) :
    (acc.audioAvg sum).getD 0 * acc.audioSamples = sum := by
  unfold audioAvg
  split
  next hpos => exact div_mul_cancel₀ sum (Nat.cast_ne_zero.mpr (by omega))
  next hzero => rw [h (by omega), Option.getD_none, zero_mul]

lemma Sound.forget_fromSummary (h : acc.Sound) : (fromSummary acc.summary).forget = acc.forget := by
  have haudioMin : (if acc.audioSamples = 0 then 0
      else (if 0 < acc.audioSamples then some acc.audioMosMin else none).getD 5) =
        if acc.audioSamples = 0 then 0 else acc.audioMosMin := by
    split
    · rfl
    next hne => rw [if_pos (Nat.pos_of_ne_zero hne), Option.getD_some]
  simp only [forget, fromSummary, summary, mk.injEq, true_and, and_true]
  refine ⟨max_eq_left h.seconds, avg_mul_samples fun hz => (h.sums hz).1, avg_mul_samples fun hz => (h.sums hz).2.1,
    avg_mul_samples fun hz => (h.sums hz).2.2.1, avg_mul_samples fun hz => (h.sums hz).2.2.2.1,
    avg_mul_samples fun hz => (h.sums hz).2.2.2.2, max_eq_left h.poorSeconds,
    audioAvg_mul_samples fun hz => (h.audioSums hz).1, haudioMin, audioAvg_mul_samples fun hz => (h.audioSums hz).2⟩

lemma forget_recordNetwork (q : NetworkQuality) (period : ℚ) :
    (acc.forget.recordNetwork q period).forget = (acc.recordNetwork q period).forget := by
  by_cases hzero : acc.audioSamples = 0 <;> simp [recordNetwork, forget, hzero]

lemma forget_recordAudio (q : NetworkQuality) : (acc.forget.recordAudio q).forget = (acc.recordAudio q).forget := by
  unfold recordAudio
  split <;> by_cases hzero : acc.audioSamples = 0 <;> simp [forget, hzero]

lemma forget_call (c : QualityCall) : (acc.forget.call c).forget = (acc.call c).forget := by
  cases c with
  | record q periodSecs =>
    simp only [call, record]
    rw [← forget_recordAudio, forget_recordNetwork, forget_recordAudio]
  | noteMosAlert => by_cases hzero : acc.audioSamples = 0 <;> simp [call, noteMosAlert, forget, hzero]
  | takeUnmetered => by_cases hzero : acc.audioSamples = 0 <;> simp [call, takeUnmetered, forget, hzero]

lemma summary_forget : acc.forget.summary = acc.summary := by
  by_cases hzero : acc.audioSamples = 0 <;> simp [summary, forget, avg, audioAvg, hzero]

lemma forget_foldl (calls : List QualityCall) (h : acc.forget = other.forget) :
    (calls.foldl call acc).forget = (calls.foldl call other).forget := by
  induction calls generalizing acc other with
  | nil => exact h
  | cons c calls ih =>
    apply ih
    rw [← forget_call, h, forget_call]

end QualityAccumulator

open QualityAccumulator

theorem quality_survives_handoff (before after : List QualityCall) :
    (after.foldl call (fromSummary (before.foldl call {}).summary)).summary =
      ((before ++ after).foldl call {}).summary := by
  have hsound : (before.foldl call {}).Sound :=
    Traces.foldl_invariant Sound (fun _ c h => h.call c) before ⟨le_rfl, le_rfl, by simp, by simp⟩
  rw [List.foldl_append, ← summary_forget, forget_foldl after hsound.forget_fromSummary, summary_forget]

end AurixVoice.Quality
