import Mathlib.Algebra.Order.Field.Rat
import Mathlib.Order.Interval.Finset.Nat

/-!
The loss counters of one sender's uplink, as `UplinkEstimator::record` in `quality.rs` keeps them. Time and
jitter are rationals; the counters stay below the sequence numbers, so they are natural numbers.
-/

namespace AurixVoice.Media

open Finset

def maxReorder : ℕ := 64
def maxGap : ℕ := 3000

structure Arrival where
  seq : ℕ
  rtpTs : Option UInt32
  bytes : ℕ
  now : ℚ

structure UplinkEstimator where
  highestSeq : Option ℕ
  receivedTotal : ℕ
  lostTotal : ℕ
  receivedInterval : ℕ
  lostInterval : ℕ
  bytesInterval : ℕ
  lateInterval : ℕ
  lastTransit : Option (UInt32 × ℚ)
  jitterMs : ℚ

namespace UplinkEstimator

def new : UplinkEstimator := ⟨none, 0, 0, 0, 0, 0, 0, none, 0⟩

variable (u : UplinkEstimator)

def countReceived : UplinkEstimator :=
  { u with receivedTotal := u.receivedTotal + 1, receivedInterval := u.receivedInterval + 1 }

def transit (ts : UInt32) (now : ℚ) : UplinkEstimator :=
  { u with
    lastTransit := some (ts, now)
    jitterMs := match u.lastTransit with
      | none => u.jitterMs
      | some (lastTs, lastAt) =>
        let expected : ℚ := (ts - lastTs).toNat / 48
        let actual := max 0 (now - lastAt) * 1000
        if expected < 1000 then u.jitterMs + (|actual - expected| - u.jitterMs) / 16 else u.jitterMs }

def account (seq : ℕ) : UplinkEstimator :=
  match u.highestSeq with
  | none => countReceived { u with highestSeq := some seq }
  | some high =>
    if high < seq then
      let gap := seq - high - 1
      let u := if gap < maxGap then { u with lostTotal := u.lostTotal + gap, lostInterval := u.lostInterval + gap }
        else { u with lastTransit := none }
      countReceived { u with highestSeq := some seq }
    else if high - seq < maxReorder then
      countReceived { u with
        lateInterval := u.lateInterval + 1
        lostTotal := u.lostTotal - 1
        lostInterval := u.lostInterval - 1 }
    else u

def record (a : Arrival) : UplinkEstimator :=
  let u := account { u with bytesInterval := u.bytesInterval + a.bytes } a.seq
  match a.rtpTs with
  | none => u
  | some ts => u.transit ts a.now

end UplinkEstimator

/-- The numbers that arrive less than `MAX_REORDER` behind all of those before them. -/
def inTime (before : List ℕ) : List ℕ → Finset ℕ
  | [] => ∅
  | n :: ns => (if ∀ m ∈ before, m < n + maxReorder then {n} else ∅) ∪ inTime (n :: before) ns

/-- Each number is a new one and no jump of `MAX_GAP`. -/
def Steady (before : List ℕ) : List ℕ → Prop
  | [] => True
  | n :: ns => n ∉ before ∧ (∃ m ∈ before, n < m + maxGap) ∧ Steady (n :: before) ns

def LossExact (first : Arrival) (as : List Arrival) : Prop :=
  let u := (first :: as).foldl UplinkEstimator.record .new
  ∃ highest ∈ (first :: as).map Arrival.seq, u.highestSeq = some highest ∧ (∀ a ∈ first :: as, a.seq ≤ highest) ∧
    u.receivedTotal + u.lostTotal = highest - first.seq + 1 ∧
    u.lostTotal = (Icc first.seq highest \ inTime [] ((first :: as).map Arrival.seq)).card

/-- `got` are the numbers among `before` that were counted as received. -/
structure Tally (first : ℕ) (before : List ℕ) (got : Finset ℕ) (u : UplinkEstimator) : Prop where
  highest : ∃ high ∈ before, u.highestSeq = some high ∧ (∀ m ∈ before, first ≤ m ∧ m ≤ high) ∧
    u.receivedTotal + u.lostTotal + first = high + 1
  past : ∀ k ∈ got, k ∈ before
  received : u.receivedTotal = got.card

variable {first high : ℕ} {before : List ℕ} {got : Finset ℕ} {u : UplinkEstimator}

lemma record_spec (a : Arrival) (h : u.highestSeq = some high) :
    (u.record a).highestSeq = some (max high a.seq) ∧
      (u.record a).receivedTotal = u.receivedTotal + (if high < a.seq + maxReorder then 1 else 0) ∧
      (u.record a).lostTotal = if high < a.seq then
          u.lostTotal + (if a.seq - high - 1 < maxGap then a.seq - high - 1 else 0)
        else if high < a.seq + maxReorder then u.lostTotal - 1 else u.lostTotal := by
  obtain ⟨seq, rtpTs, bytes, now⟩ := a
  have hreorder : 0 < maxReorder := by decide
  cases rtpTs <;> simp only [UplinkEstimator.record, UplinkEstimator.account, UplinkEstimator.transit, h] <;>
    split_ifs <;> simp [UplinkEstimator.countReceived] <;> omega

lemma Tally.record (h : Tally first before got u) (a : Arrival) (hnew : a.seq ∉ before)
    (hjump : ∃ m ∈ before, a.seq < m + maxGap) (hfirst : first ≤ a.seq) :
    Tally first (a.seq :: before) (got ∪ if ∀ m ∈ before, m < a.seq + maxReorder then {a.seq} else ∅)
      (u.record a) := by
  obtain ⟨⟨high, hmem, hhigh, hbound, htotal⟩, hpast, hreceived⟩ := h
  obtain ⟨m, hm, hjump⟩ := hjump
  obtain ⟨hseq, hrec, hlost⟩ := record_spec a hhigh
  have hgot : a.seq ∉ got := fun hin => hnew (hpast _ hin)
  have hin : (∀ m ∈ before, m < a.seq + maxReorder) ↔ high < a.seq + maxReorder :=
    ⟨fun h => h high hmem, fun h m hm => (hbound m hm).2.trans_lt h⟩
  have hmhigh := (hbound m hm).2
  -- a number that comes late is one of those charged as lost, so there is one to refund
  have hcharged : a.seq ≤ high → 0 < u.lostTotal := by
    intro hle
    have hsub : got ⊆ (Icc first high).erase a.seq := fun k hk =>
      mem_erase.mpr ⟨fun heq => hgot (heq ▸ hk), mem_Icc.mpr (hbound k (hpast k hk))⟩
    have hcard := card_le_card hsub
    rw [card_erase_of_mem (mem_Icc.mpr ⟨hfirst, hle⟩), Nat.card_Icc] at hcard
    omega
  simp only [hin]
  refine ⟨⟨max high a.seq, ?_, hseq, fun k hk => ?_, ?_⟩, fun k hk => ?_, ?_⟩
  · rcases max_choice high a.seq with hmax | hmax <;> simp [hmax, hmem]
  · rcases List.mem_cons.mp hk with rfl | hk
    · exact ⟨hfirst, le_max_right ..⟩
    · exact ⟨(hbound k hk).1, le_max_of_le_left (hbound k hk).2⟩
  · split_ifs at hrec hlost <;> omega
  · rcases mem_union.mp hk with hk | hk
    · exact List.mem_cons_of_mem _ (hpast k hk)
    · split_ifs at hk <;> simp_all
  · split_ifs at hrec ⊢ <;> simp [hrec, hreceived, hgot]

lemma Tally.run (h : Tally first before got u) (as : List Arrival) (hsteady : Steady before (as.map Arrival.seq))
    (hfirst : ∀ a ∈ as, first ≤ a.seq) :
    Tally first ((as.map Arrival.seq).reverse ++ before) (got ∪ inTime before (as.map Arrival.seq))
      (as.foldl UplinkEstimator.record u) := by
  induction as generalizing before got u with
  | nil => simpa [inTime] using h
  | cons a as ih =>
    obtain ⟨hnew, hjump, hrest⟩ := hsteady
    have hnext := ih (h.record a hnew hjump (hfirst a List.mem_cons_self)) hrest fun b hb =>
      hfirst b (List.mem_cons_of_mem _ hb)
    simpa [inTime, union_assoc] using hnext

theorem uplink_loss_exact (first : Arrival) (as : List Arrival) (hsteady : Steady [first.seq] (as.map Arrival.seq))
    (hfirst : ∀ a ∈ as, first.seq ≤ a.seq) : LossExact first as := by
  have hstart : Tally first.seq [first.seq] {first.seq} (UplinkEstimator.new.record first) := by
    obtain ⟨seq, rtpTs, bytes, now⟩ := first
    cases rtpTs <;> constructor <;> simp [UplinkEstimator.record, UplinkEstimator.new, UplinkEstimator.account,
      UplinkEstimator.countReceived, UplinkEstimator.transit, add_comm]
  obtain ⟨⟨high, hmem, hhigh, hbound, htotal⟩, hpast, hreceived⟩ := hstart.run as hsteady hfirst
  have hgot : inTime [] ((first :: as).map Arrival.seq) = {first.seq} ∪ inTime [first.seq] (as.map Arrival.seq) := by
    simp [inTime]
  have hlow := (hbound high hmem).1
  refine ⟨high, by simpa [or_comm] using hmem, hhigh, fun a ha => ?_, by dsimp only [List.foldl_cons]; omega, ?_⟩
  · exact (hbound a.seq (by simpa [or_comm] using List.mem_map_of_mem (f := Arrival.seq) ha)).2
  · rw [hgot, card_sdiff_of_subset fun k hk => mem_Icc.mpr (hbound k (hpast k hk)), Nat.card_Icc, ← hreceived,
      List.foldl_cons]
    omega

def reordered : List Arrival := [⟨12, none, 0, 0⟩, ⟨11, none, 0, 0⟩, ⟨90, none, 0, 0⟩, ⟨13, none, 0, 0⟩]

theorem uplink_loss_exact_reordered :
    Steady [10] (reordered.map Arrival.seq) ∧ LossExact ⟨10, none, 0, 0⟩ reordered := by
  have hsteady : Steady [10] (reordered.map Arrival.seq) := by simp [reordered, Steady, maxGap]
  exact ⟨hsteady, uplink_loss_exact ⟨10, none, 0, 0⟩ reordered hsteady (by simp [reordered])⟩

end AurixVoice.Media
