import AurixVoice.Library.Traces
import Mathlib.Algebra.Order.Ring.Unbundled.Rat
import Mathlib.Data.List.DropRight

/-!
The debounced MOS detector of `types.rs`. A float is its value; how a sum is rounded is a parameter that no
result depends on.
-/

namespace AurixVoice.Quality

inductive F32
  | nan
  | negInf
  | finite (x : ℚ)
  | posInf
  deriving DecidableEq

namespace F32

def isNan (a : F32) : Bool := a = nan

def isFinite : F32 → Bool
  | finite _ => true
  | _ => false

def lt : F32 → F32 → Bool
  | finite x, finite y => x < y
  | negInf, finite _ => true
  | negInf, posInf => true
  | finite _, posInf => true
  | _, _ => false

def le (a b : F32) : Bool := a.lt b || (a = b && !a.isNan)

def add (round : ℚ → F32) : F32 → F32 → F32
  | finite x, finite y => round (x + y)
  | nan, _ => nan
  | _, nan => nan
  | negInf, posInf => nan
  | posInf, negInf => nan
  | negInf, _ => negInf
  | _, negInf => negInf
  | posInf, _ => posInf
  | _, posInf => posInf

end F32

def mosRecoveryMargin : F32 := .finite (13421773 / 67108864)

def maxU32 : ℕ := 4294967295

inductive MosTransition
  | degraded
  | recovered
  deriving DecidableEq

structure MosAlertState where
  below : ℕ := 0
  above : ℕ := 0
  alerting : Bool := false
  deriving DecidableEq

variable (round : ℚ → F32) (threshold : F32) (periods : UInt32)

def MosAlertState.observe (s : MosAlertState) (mos : F32) : Option MosTransition × MosAlertState :=
  if threshold.isNan || threshold.le (.finite 0) || !mos.isFinite then (none, s)
  else
    let periods := max periods.toNat 1
    if mos.lt threshold then
      let s := { s with below := min (s.below + 1) maxU32, above := 0 }
      if !s.alerting && periods ≤ s.below then (some .degraded, { s with alerting := true }) else (none, s)
    else
      let s := { s with below := 0 }
      if (threshold.add round mosRecoveryMargin).le mos then
        let s := { s with above := min (s.above + 1) maxU32 }
        if s.alerting && periods ≤ s.above then (some .recovered, { s with alerting := false, above := 0 })
        else (none, s)
      else (none, { s with above := 0 })

/-- A session's detector with what it was given and what it answered. -/
structure Observed where
  state : MosAlertState
  log : List (F32 × Option MosTransition)

def Observed.step (o : Observed) (mos : F32) : Observed :=
  let (transition, state) := o.state.observe round threshold periods mos
  ⟨state, o.log ++ [(mos, transition)]⟩

def observed (samples : List F32) : Observed := samples.foldl (Observed.step round threshold periods) ⟨{}, []⟩

namespace Observed

variable (o : Observed)

def transitions : List MosTransition := o.log.filterMap Prod.snd

/-- The samples after the last transition. -/
def sinceTransition : List F32 := (o.log.rtakeWhile fun e => e.2.isNone).map Prod.fst

def due : MosTransition := if o.transitions.length % 2 = 0 then .degraded else .recovered

end Observed

def qualifies : MosTransition → F32 → Bool
  | .degraded, mos => mos.lt threshold
  | .recovered, mos => !mos.lt threshold && (threshold.add round mosRecoveryMargin).le mos

def counts (mos : F32) : Bool := !(threshold.isNan || threshold.le (.finite 0) || !mos.isFinite)

/-- The longest run of qualifying samples that `samples` ends with. -/
def streak (t : MosTransition) (samples : List F32) : ℕ := (samples.rtakeWhile (qualifies round threshold t)).length

lemma streak_concat (t : MosTransition) (samples : List F32) (mos : F32) :
    streak round threshold t (samples ++ [mos]) =
      if qualifies round threshold t mos then streak round threshold t samples + 1 else 0 := by
  unfold streak
  rw [List.rtakeWhile_concat]
  split
  · rw [List.length_append, List.length_singleton]
  · rfl

namespace MosAlertState

variable (s : MosAlertState) (mos : F32)

def waitsFor : MosTransition := if s.alerting then .recovered else .degraded

def counter : ℕ := if s.alerting then s.above else s.below

/-- The awaited transition's counter after a sample that counts. -/
def next : ℕ := if qualifies round threshold s.waitsFor mos then min (s.counter + 1) maxU32 else 0

variable {threshold mos}

lemma observe_of_not_counts (h : counts threshold mos = false) : s.observe round threshold periods mos = (none, s) := by
  rw [counts, Bool.not_eq_false'] at h
  exact if_pos h

lemma observe_of_counts (h : counts threshold mos = true) :
    let r := s.observe round threshold periods mos
    (max periods.toNat 1 ≤ s.next round threshold mos ∧ r.1 = some s.waitsFor ∧ r.2.alerting = !s.alerting ∧
        r.2.counter = 0) ∨
      (s.next round threshold mos < max periods.toNat 1 ∧ r.1 = none ∧ r.2.alerting = s.alerting ∧
        r.2.counter = s.next round threshold mos) := by
  obtain ⟨below, above, alerting⟩ := s
  rw [counts, Bool.not_eq_true'] at h
  have hpos : 0 < max periods.toNat 1 := lt_max_of_lt_right Nat.zero_lt_one
  simp only [observe, h, next, waitsFor, counter, qualifies]
  generalize max periods.toNat 1 = p at hpos ⊢
  cases alerting <;> grind

end MosAlertState

namespace Observed

variable {round threshold periods} {o : Observed} {mos : F32}

lemma step_spec {t : Option MosTransition} (h : (o.state.observe round threshold periods mos).1 = t) :
    (o.step round threshold periods mos).transitions = o.transitions ++ t.toList ∧
      (o.step round threshold periods mos).sinceTransition = if t.isNone then o.sinceTransition ++ [mos] else [] := by
  simp only [step, h, transitions, sinceTransition, List.rtakeWhile_concat]
  cases t <;> simp

variable (round threshold periods)

/-- Whether the detector waits for a recovery follows the number of transitions; the counter it then compares
is the streak of what has counted since the last one. -/
structure Counted (o : Observed) : Prop where
  alternate : ∀ k t, o.transitions[k]? = some t → t = if k % 2 = 0 then .degraded else .recovered
  alerting : o.state.alerting = decide (o.transitions.length % 2 = 1)
  streak : o.state.counter = streak round threshold o.due (o.sinceTransition.filter (counts threshold))
  short : o.state.counter < max periods.toNat 1

variable {round threshold periods}

section

variable (h : o.Counted round threshold periods)
include h

lemma Counted.due_eq : o.due = o.state.waitsFor := by
  rw [due, MosAlertState.waitsFor, h.alerting]
  rcases Nat.mod_two_eq_zero_or_one o.transitions.length with heven | hodd
  · simp [heven]
  · simp [hodd]

/-- Below the number of periods the counter does not saturate. -/
lemma Counted.observe (mos : F32) :
    let n := Quality.streak round threshold o.due ((o.sinceTransition ++ [mos]).filter (counts threshold))
    let r := o.state.observe round threshold periods mos
    (n = max periods.toNat 1 ∧ counts threshold mos = true ∧ r.1 = some o.due ∧
        r.2.alerting = !o.state.alerting ∧ r.2.counter = 0) ∨
      (n < max periods.toNat 1 ∧ r.1 = none ∧ r.2.alerting = o.state.alerting ∧ r.2.counter = n) := by
  have hshort := h.short
  intro n r
  cases hcounts : counts threshold mos with
  | false =>
    have hn : n = o.state.counter := by
      rw [h.streak]
      simp [n, hcounts]
    have hr : r = (none, o.state) := o.state.observe_of_not_counts round periods hcounts
    rw [hr]
    exact .inr ⟨hn ▸ hshort, rfl, rfl, hn.symm⟩
  | true =>
    have hmin : min (o.state.counter + 1) maxU32 = o.state.counter + 1 := by
      have hperiods : periods.toNat < 2 ^ 32 := periods.toNat_lt
      unfold maxU32
      omega
    have hn : n = o.state.next round threshold mos := by
      rw [MosAlertState.next, hmin, h.streak, ← h.due_eq, ← streak_concat]
      simp [n, hcounts]
    have hle : n ≤ max periods.toNat 1 := by
      rw [hn, MosAlertState.next, hmin]
      split <;> omega
    rw [hn] at hle ⊢
    rw [h.due_eq]
    obtain ⟨hdone, hfires⟩ | hquiet := o.state.observe_of_counts round periods hcounts
    · exact .inl ⟨le_antisymm hle hdone, rfl, hfires⟩
    · exact .inr hquiet

lemma Counted.emits_iff (mos : F32) (t : MosTransition) : (o.state.observe round threshold periods mos).1 = some t ↔
      counts threshold mos = true ∧ t = o.due ∧
        Quality.streak round threshold t ((o.sinceTransition ++ [mos]).filter (counts threshold)) =
          max periods.toNat 1 := by
  obtain ⟨hn, hcounts, hob, -⟩ | ⟨hn, hob, -⟩ := h.observe mos
  · rw [hob, Option.some.injEq]
    exact ⟨fun heq => heq ▸ ⟨hcounts, rfl, hn⟩, fun heq => heq.2.1.symm⟩
  · rw [hob]
    constructor
    · exact nofun
    · rintro ⟨-, rfl, heq⟩
      exact absurd heq (ne_of_lt hn)

lemma Counted.step (mos : F32) : (o.step round threshold periods mos).Counted round threshold periods := by
  obtain ⟨-, -, hob, halert, hcounter⟩ | ⟨hn, hob, halert, hcounter⟩ := h.observe mos
  · obtain ⟨htrans, hsince⟩ := step_spec hob
    refine ⟨fun k t hk => ?_, ?_, ?_, hcounter ▸ lt_max_of_lt_right Nat.zero_lt_one⟩
    · rw [htrans, List.getElem?_append] at hk
      split at hk
      · exact h.alternate k t hk
      next hlen =>
        obtain ⟨hk', rfl⟩ : k - o.transitions.length = 0 ∧ o.due = t := by
          simpa [List.getElem?_singleton] using hk
        have hlast : k = o.transitions.length := by omega
        rw [due, hlast]
    · rw [htrans, List.length_append, Option.toList_some, List.length_singleton]
      rw [h.alerting, ← decide_not] at halert
      refine halert.trans (decide_eq_decide.mpr ?_)
      omega
    · rw [hsince]
      exact hcounter
  · obtain ⟨htrans, hsince⟩ := step_spec hob
    rw [Option.toList_none, List.append_nil] at htrans
    rw [Option.isNone_none, if_pos rfl] at hsince
    have hdue : (o.step round threshold periods mos).due = o.due := by rw [due, htrans, due]
    refine ⟨htrans ▸ h.alternate, ?_, ?_, hcounter ▸ hn⟩
    · rw [htrans, ← h.alerting]
      exact halert
    · rw [hsince, hdue]
      exact hcounter

end

end Observed

theorem mos_alerts_exact (samples : List F32) :
    let o := observed round threshold periods samples
    (∀ k t, o.transitions[k]? = some t → t = if k % 2 = 0 then .degraded else .recovered) ∧
      ∀ mos t, (o.state.observe round threshold periods mos).1 = some t ↔
        counts threshold mos = true ∧ t = o.due ∧
          streak round threshold t ((o.sinceTransition ++ [mos]).filter (counts threshold)) =
            max periods.toNat 1 := by
  intro o
  have hinit : Observed.Counted round threshold periods ⟨{}, []⟩ := by
    refine ⟨fun k t hk => ?_, rfl, rfl, lt_max_of_lt_right Nat.zero_lt_one⟩
    simp [Observed.transitions] at hk
  have ho : o.Counted round threshold periods :=
    Traces.foldl_invariant (Observed.Counted round threshold periods) (fun _ mos h => h.step mos) samples hinit
  exact ⟨ho.alternate, ho.emits_iff⟩

/-- A sample that is no number stands between the two low ones, and the streak goes on. -/
theorem nan_does_not_break_streak :
    let low := F32.finite 1
    let o := observed .finite (.finite 3) 2 [low, .nan]
    (o.state.observe .finite (.finite 3) 2 low).1 = some .degraded ∧
      streak .finite (.finite 3) .degraded (o.sinceTransition ++ [low]) = 1 := by
  decide

end AurixVoice.Quality
