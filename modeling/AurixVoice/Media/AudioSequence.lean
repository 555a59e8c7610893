import AurixVoice.Library.Traces
import Mathlib.Algebra.Group.Nat.Defs
import Mathlib.Data.Finset.Image

/-!
The audio-only numbering a `MediaSession` hands out to the receivers of one sender.
-/

namespace AurixVoice.Media

open Traces
open UInt32 (ofNat ofNat_add toNat)

def audioFrameTs : Int := 960
def maxForwardedGapFrames : Int := 50

structure AudioClock where
  uplinkSeq : UInt32
  rtpTs : UInt32
  seq : UInt32
  deriving DecidableEq

structure AudioNumbering where
  sequence : UInt32
  clock : Option AudioClock
  deriving DecidableEq

inductive Place
  | ahead (step : ℕ)
  | late (last : AudioClock) (frames : ℕ)
  deriving DecidableEq

def place (clock : Option AudioClock) (uplinkSeq rtpTs : UInt32) : Place :=
  match clock with
  | none => .ahead 1
  | some last =>
    let ts := (rtpTs - last.rtpTs).toInt32.toInt
    let packets := (uplinkSeq - last.uplinkSeq).toInt32.toInt
    let frames := ts.tdiv audioFrameTs
    if ts.tmod audioFrameTs ≠ 0 ∨ frames = 0 then .ahead 1
    else if frames < 0 then
      if packets < 0 ∧ -maxForwardedGapFrames ≤ frames then .late last frames.natAbs
      else .ahead 1
    else if maxForwardedGapFrames < frames then .ahead 1
    else .ahead (min frames (max packets 1)).toNat

/-- The timestamps `n` frames of 20 ms take up. -/
def frameTs (n : ℕ) : UInt32 := ofNat (960 * n)

variable {clock : Option AudioClock} {uplinkSeq rtpTs : UInt32}

lemma place_ahead {step : ℕ} (h : place clock uplinkSeq rtpTs = .ahead step) : 0 < step ∧ step ≤ 50 := by
  unfold place maxForwardedGapFrames at h
  split at h
  · cases h
    decide
  next last =>
    dsimp only at h
    split_ifs at h with h1 h2 h3 h4
    all_goals cases h
    all_goals omega

lemma eq_sub_frameTs {last : UInt32} {k : ℕ} (h : (rtpTs - last).toInt32.toInt = -(960 * (k : ℤ))) :
    rtpTs = last - frameTs k := by
  have hbits : (rtpTs - last).toBitVec.toInt = -(960 * (k : ℤ)) := h
  have hsub := UInt32.toNat_sub rtpTs last
  have hts := rtpTs.toNat_lt
  have hlast := last.toNat_lt
  rw [BitVec.toInt_eq_toNat_cond, UInt32.toNat_toBitVec] at hbits
  apply UInt32.toNat_inj.mp
  rw [frameTs, UInt32.toNat_sub, UInt32.toNat_ofNat']
  split_ifs at hbits
  all_goals omega

lemma place_late {last : AudioClock} {k : ℕ} (h : place clock uplinkSeq rtpTs = .late last k) :
    clock = some last ∧ k ≤ 50 ∧ rtpTs = last.rtpTs - frameTs k := by
  unfold place audioFrameTs maxForwardedGapFrames at h
  split at h
  · cases h
  next last =>
    dsimp only at h
    split_ifs at h with h1 h2 h3
    cases h
    have hdiv := Int.mul_tdiv_add_tmod (rtpTs - last.rtpTs).toInt32.toInt 960
    refine ⟨rfl, by omega, eq_sub_frameTs ?_⟩
    omega

namespace AudioNumbering

def init (audioSeq : UInt32) : AudioNumbering := ⟨audioSeq, none⟩

def nextAudioSequence (s : AudioNumbering) (uplinkSeq rtpTs : UInt32) : UInt32 × AudioNumbering :=
  match place s.clock uplinkSeq rtpTs with
  | .late last frames =>
    if frames ≤ last.seq.toNat then (last.seq - ofNat frames, s)
    else (s.sequence, { s with sequence := s.sequence + 1 })
  | .ahead step =>
    let seq := s.sequence + (ofNat step - 1)
    (seq, ⟨s.sequence + ofNat step, some ⟨uplinkSeq, rtpTs, seq⟩⟩)

def nextSequence (s : AudioNumbering) : UInt32 × AudioNumbering :=
  (s.sequence, ⟨s.sequence + 1, none⟩)

end AudioNumbering

inductive AudioFrame
  | uplink (uplinkSeq rtpTs : UInt32)
  | server
  deriving DecidableEq

structure Forwarded where
  numbering : AudioNumbering
  start : UInt32
  used : ℕ
  missing : Finset UInt32
  given : List UInt32

namespace Forwarded

def init (audioSeq : UInt32) : Forwarded := ⟨.init audioSeq, audioSeq, 0, ∅, []⟩

/-- The timestamps of the last second that no frame has carried, on a clock that has stepped from
frame to frame by 20 ms each; any other step (a pause, a frame for a second channel) begins anew. -/
def missingAt (s : Forwarded) (rtpTs : UInt32) (step : ℕ) : Finset UInt32 :=
  match s.numbering.clock with
  | none => ∅
  | some last =>
    if rtpTs = last.rtpTs + frameTs step then
      (s.missing ∪ (Finset.range (step - 1)).image fun i => last.rtpTs + frameTs (i + 1)).filter
        fun ts => (rtpTs - ts).toNat ≤ 48000
    else ∅

def step (s : Forwarded) : AudioFrame → Forwarded
  | .server =>
    let (number, numbering) := s.numbering.nextSequence
    { s with numbering := numbering, used := s.used + 1, given := number :: s.given }
  | .uplink uplinkSeq rtpTs =>
    let (number, numbering) := s.numbering.nextAudioSequence uplinkSeq rtpTs
    match place s.numbering.clock uplinkSeq rtpTs with
    | .late last frames =>
      if frames ≤ last.seq.toNat then
        { s with numbering := numbering, missing := s.missing.erase rtpTs, given := number :: s.given }
      else
        { s with numbering := numbering, used := s.used + 1, missing := ∅, given := number :: s.given }
    | .ahead step =>
      { s with
        numbering := numbering, used := s.used + step, missing := s.missingAt rtpTs step
        given := number :: s.given }

/-- A late frame has a missing timestamp, unless it is late for a slot below number 0; the others
still find numbers in the width of the counter. -/
def HasSlot (s : Forwarded) : AudioFrame → Prop
  | .server => s.used < 2 ^ 32
  | .uplink uplinkSeq rtpTs =>
    match place s.numbering.clock uplinkSeq rtpTs with
    | .late last frames => if frames ≤ last.seq.toNat then rtpTs ∈ s.missing else s.used < 2 ^ 32
    | .ahead step => s.used + step ≤ 2 ^ 32

instance (s : Forwarded) : DecidablePred s.HasSlot := by
  intro frame
  unfold HasSlot
  split
  · infer_instance
  · split <;> infer_instance

/-- A missing timestamp lies `k` frames before the last frame, and the number `k` before the last
frame's is free. -/
def Free (s : Forwarded) (last : AudioClock) (i : ℕ) (ts : UInt32) : Prop :=
  s.used = i + 1 ∧ ∃ k ≤ 50, k ≤ i ∧ ts = last.rtpTs - frameTs k ∧ s.start + ofNat (i - k) ∉ s.given

structure Numbered (s : Forwarded) : Prop where
  used_le : s.used ≤ 2 ^ 32
  sequence : s.numbering.sequence = s.start + ofNat s.used
  given : ∀ x ∈ s.given, ∃ i < s.used, x = s.start + ofNat i
  nodup : s.given.Nodup
  clock : ∀ last, s.numbering.clock = some last →
    ∃ i < s.used, last.seq = s.start + ofNat i ∧ ∀ ts ∈ s.missing, s.Free last i ts

lemma init_numbered (audioSeq : UInt32) : (init audioSeq).Numbered :=
  ⟨Nat.zero_le _, by simp [init, AudioNumbering.init], by simp [init], by simp [init], nofun⟩

lemma number_inj {start : UInt32} {i j : ℕ} (hi : i < 2 ^ 32) (hj : j < 2 ^ 32)
    (h : start + ofNat i = start + ofNat j) : i = j := by
  have heq : ofNat i = ofNat j := by simpa using h
  have hnat := congrArg toNat heq
  simp only [UInt32.toNat_ofNat'] at hnat
  omega

lemma number_add (start : UInt32) (n k : ℕ) : start + ofNat n + ofNat k = start + ofNat (n + k) := by
  rw [UInt32.add_assoc, ← ofNat_add]

lemma number_last (start : UInt32) (n : ℕ) {k : ℕ} (hk : 0 < k) :
    start + ofNat n + (ofNat k - 1) = start + ofNat (n + (k - 1)) := by
  have h1 : ofNat k - 1 = ofNat (k - 1) := by
    obtain ⟨m, rfl⟩ : ∃ m, k = m + 1 := ⟨k - 1, by omega⟩
    simp [ofNat_add]
  rw [h1, number_add]

lemma number_sub (start : UInt32) {i k : ℕ} (hk : k ≤ i) : start + ofNat i - ofNat k = start + ofNat (i - k) := by
  obtain ⟨m, rfl⟩ := Nat.exists_eq_add_of_le' hk
  rw [← number_add, UInt32.add_sub_cancel, Nat.add_sub_cancel]

lemma frameTs_add (m n : ℕ) : frameTs (m + n) = frameTs m + frameTs n := by
  rw [frameTs, Nat.mul_add, ofNat_add, frameTs, frameTs]

lemma frameTs_inj {last : UInt32} {j k : ℕ} (hj : j ≤ 50) (hk : k ≤ 50)
    (h : last - frameTs j = last - frameTs k) : j = k := by
  have heq : frameTs j = frameTs k := by simpa using h
  have hnat := congrArg toNat heq
  simp only [frameTs, UInt32.toNat_ofNat'] at hnat
  omega

lemma unused_not_given {s : Forwarded} (h : s.Numbered) {j : ℕ} (hj : s.used ≤ j) (hlt : j < 2 ^ 32) :
    s.start + ofNat j ∉ s.given := by
  intro hm
  obtain ⟨i, hi, heq⟩ := h.given _ hm
  have hij := number_inj hlt (by omega) heq
  omega

lemma numbered_of_unused {s s' : Forwarded} (h : s.Numbered) {j : ℕ} (hj : s.used ≤ j)
    (hlt : j < s'.used) (hused : s'.used ≤ 2 ^ 32) (hstart : s'.start = s.start)
    (hseq : s'.numbering.sequence = s.start + ofNat s'.used) (hgiven : s'.given = (s.start + ofNat j) :: s.given)
    (hclock : ∀ last, s'.numbering.clock = some last →
      ∃ i < s'.used, last.seq = s'.start + ofNat i ∧ ∀ ts ∈ s'.missing, s'.Free last i ts) :
    s'.Numbered where
  used_le := hused
  sequence := by rw [hseq, hstart]
  given := by
    intro x hx
    rw [hgiven] at hx
    rw [hstart]
    rcases List.mem_cons.mp hx with rfl | hx
    · exact ⟨j, hlt, rfl⟩
    · obtain ⟨i, hi, rfl⟩ := h.given x hx
      exact ⟨i, by omega, rfl⟩
  nodup := by
    rw [hgiven]
    exact List.nodup_cons.mpr ⟨unused_not_given h hj (by omega), h.nodup⟩
  clock := hclock

lemma late_numbered {s : Forwarded} (h : s.Numbered) {last : AudioClock} {k : ℕ}
    (hlast : s.numbering.clock = some last) (hk : k ≤ 50) (hts : rtpTs = last.rtpTs - frameTs k)
    (hmissing : rtpTs ∈ s.missing) :
    ({ s with
        missing := s.missing.erase rtpTs, given := (last.seq - ofNat k) :: s.given } : Forwarded).Numbered := by
  have hle := h.used_le
  obtain ⟨i, hi, hseq, hfree⟩ := h.clock last hlast
  obtain ⟨hused, j, hj, hji, hjts, hnot⟩ := hfree rtpTs hmissing
  obtain rfl := frameTs_inj hk hj (hts.symm.trans hjts)
  rw [hseq, number_sub _ hji]
  refine ⟨hle, h.sequence, ?_, List.nodup_cons.mpr ⟨hnot, h.nodup⟩, ?_⟩
  · intro x hx
    rcases List.mem_cons.mp hx with rfl | hx
    · exact ⟨i - k, by dsimp only; omega, rfl⟩
    · exact h.given x hx
  · intro last' hlast'
    obtain rfl : last = last' := Option.some.inj (hlast.symm.trans hlast')
    refine ⟨i, hi, hseq, fun ts hm => ?_⟩
    obtain ⟨hne, hm⟩ := Finset.mem_erase.mp hm
    obtain ⟨-, m, hm50, hmi, rfl, hfree'⟩ := hfree ts hm
    refine ⟨hused, m, hm50, hmi, rfl, ?_⟩
    rw [List.mem_cons, not_or]
    refine ⟨fun heq => hne ?_, hfree'⟩
    have hmk := number_inj (by omega) (by omega) heq
    rw [hts, show m = k by omega]

/-- The clock has gone `n` frames ahead to the `i`-th number: what is missing then was missing before,
or has just been passed over. -/
lemma free_ahead {s s' : Forwarded} (h : s.Numbered) {n : ℕ} (hn : 0 < n ∧ n ≤ 50)
    (hroom : s.used + n ≤ 2 ^ 32) (hstart : s'.start = s.start) (hused : s'.used = s.used + n)
    (hgiven : s'.given = (s.start + ofNat (s.used + (n - 1))) :: s.given) (seq : UInt32) :
    ∀ ts ∈ s.missingAt rtpTs n, s'.Free ⟨uplinkSeq, rtpTs, seq⟩ (s.used + (n - 1)) ts := by
  have hfree (k : ℕ) (hk : k ≤ 50) (hpos : 0 < k) (hle : k ≤ s.used + (n - 1)) (ts : UInt32)
      (hts : ts = rtpTs - frameTs k) (hnot : s.start + ofNat (s.used + (n - 1) - k) ∉ s.given) :
      s'.Free ⟨uplinkSeq, rtpTs, seq⟩ (s.used + (n - 1)) ts := by
    refine ⟨by omega, k, hk, hle, hts, ?_⟩
    rw [hgiven, hstart, List.mem_cons, not_or]
    refine ⟨fun heq => ?_, hnot⟩
    have := number_inj (by omega) (by omega) heq
    omega
  intro ts hts
  unfold missingAt at hts
  split at hts
  · cases Finset.notMem_empty _ hts
  next last hlast =>
    split_ifs at hts with hclock
    · obtain ⟨i, hi, -, hold⟩ := h.clock last hlast
      obtain ⟨hts, hnear⟩ := Finset.mem_filter.mp hts
      rcases Finset.mem_union.mp hts with hts | hts
      · obtain ⟨hi1, k, hk, hki, rfl, hnot⟩ := hold ts hts
        have hback : last.rtpTs - frameTs k = rtpTs - frameTs (k + n) := by
          rw [hclock, frameTs_add]
          grind
        have hdist : rtpTs - (rtpTs - frameTs (k + n)) = frameTs (k + n) := by grind
        rw [hback, hdist, frameTs, UInt32.toNat_ofNat', Nat.mod_eq_of_lt (by omega)] at hnear
        refine hfree (k + n) (by omega) (by omega) (by omega) _ hback ?_
        rwa [show s.used + (n - 1) - (k + n) = i - k by omega]
      · obtain ⟨m, hm, rfl⟩ := Finset.mem_image.mp hts
        have hlt := Finset.mem_range.mp hm
        refine hfree (n - 1 - m) (by omega) (by omega) (by omega) _ ?_ ?_
        · rw [hclock, show n = m + 1 + (n - 1 - m) by omega, frameTs_add (m + 1)]
          simp [← UInt32.add_assoc]
        · rw [show s.used + (n - 1) - (n - 1 - m) = s.used + m by omega]
          exact unused_not_given h (by omega) (by omega)
    · cases Finset.notMem_empty _ hts

lemma step_numbered (s : Forwarded) (frame : AudioFrame) (h : s.Numbered) (hok : s.HasSlot frame) :
    (s.step frame).Numbered := by
  have hseq := h.sequence
  have hnext : s.start + ofNat s.used + 1 = s.start + ofNat (s.used + 1) :=
    number_add s.start s.used 1
  cases frame with
  | server =>
    have hused : s.used < 2 ^ 32 := hok
    refine numbered_of_unused h (le_refl s.used) (Nat.lt_succ_self _) hused rfl ?_ ?_ nofun
    · simp [step, AudioNumbering.nextSequence, hseq, hnext]
    · simp [step, AudioNumbering.nextSequence, hseq]
  | uplink uplinkSeq rtpTs =>
    simp only [HasSlot] at hok
    simp only [step, AudioNumbering.nextAudioSequence]
    cases hplace : place s.numbering.clock uplinkSeq rtpTs with
    | late last k =>
      obtain ⟨hlast, hk, hts⟩ := place_late hplace
      simp only [hplace] at hok ⊢
      split_ifs at hok ⊢ with hle
      · exact late_numbered h hlast hk hts hok
      · refine numbered_of_unused h (le_refl s.used) (Nat.lt_succ_self _) hok rfl ?_ ?_ ?_
        · simp [hseq, hnext]
        · simp [hseq]
        · intro last hlast
          obtain ⟨i, hi, hnum, -⟩ := h.clock last hlast
          exact ⟨i, Nat.lt_succ_of_lt hi, hnum, nofun⟩
    | ahead n =>
      simp only [hplace] at hok ⊢
      have hn := place_ahead hplace
      have hnum := number_last s.start s.used hn.1
      refine numbered_of_unused (j := s.used + (n - 1)) h (by omega) (by dsimp only; omega) hok rfl ?_ ?_ ?_
      · simp [hseq, number_add]
      · simp [hseq, hnum]
      · rintro _ ⟨⟩
        refine ⟨s.used + (n - 1), by dsimp only; omega, by rw [hseq, hnum], ?_⟩
        refine free_ahead h hn hok ?_ ?_ ?_ _
        · rfl
        · rfl
        · rw [hseq, hnum]

theorem forwarded_numbers_injective (audioSeq : UInt32) (frames : List AudioFrame)
    (h : Meets step HasSlot (init audioSeq) frames) : (frames.foldl step (init audioSeq)).given.Nodup :=
  (meets_invariant Numbered step_numbered h (init_numbered audioSeq)).nodup

theorem forwarded_numbers_injective_sample :
    ([.uplink 10 0, .uplink 11 960, .uplink 14 3840, .uplink 13 2880, .server].foldl step
      (init 0)).given.Nodup := by
  apply forwarded_numbers_injective
  refine ⟨?_, ?_, ?_, ?_, ?_, trivial⟩ <;> decide

theorem late_twin_collides : ¬ ([.uplink 10 0, .uplink 11 960, .uplink 9 0].foldl step (init 0)).given.Nodup := by
  decide

end Forwarded

end AurixVoice.Media
