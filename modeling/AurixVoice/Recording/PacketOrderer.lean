import AurixVoice.Recording.LiveStreams
import Mathlib.Algebra.BigOperators.Group.List.Basic
import Mathlib.Algebra.GroupWithZero.Nat
import Mathlib.Data.List.Chain

/-! A track as it is written: the orderer, which turns timestamps into durations, and the writer, which sums them. -/

namespace AurixVoice.Recording

open List
open UInt32 (ofNat)

def reorderDepth : ℕ := 5

def maxGapSamples : ℕ := 48000 * 5

def defaultFrameSamples : ℕ := 960

def opusClockRate : ℕ := 48000

abbrev Payload := List UInt8

structure PacketOrderer where
  pending : List (ℕ × Payload)
  lastTs : Option ℕ
  highestExt : Option ℕ

def absDiff (a b : ℕ) : ℕ := (a - b) + (b - a)

def nearest (highest : ℕ) : ℕ → List ℕ → ℕ
  | best, [] => best
  | best, c :: cs => nearest highest (if absDiff c highest < absDiff best highest then c else best) cs

def insertAbsent (ext : ℕ) (data : Payload) : List (ℕ × Payload) → List (ℕ × Payload)
  | [] => [(ext, data)]
  | p :: ps =>
    if ext < p.1 then (ext, data) :: p :: ps
    else if ext = p.1 then p :: ps
    else p :: insertAbsent ext data ps

def durationFor (lastTs : Option ℕ) (ts : ℕ) : ℕ :=
  match lastTs with
  | some prev => if prev < ts then min (ts - prev) maxGapSamples else defaultFrameSamples
  | none => defaultFrameSamples

def drain (keep : ℕ) : Option ℕ → List (ℕ × Payload) → List (ℕ × Payload) × Option ℕ × List (ℕ × Payload)
  | last, [] => ([], last, [])
  | last, (ts, data) :: rest =>
    if keep < rest.length + 1 then
      let (out, last', left) := drain keep (some ts) rest
      ((durationFor last ts, data) :: out, last', left)
    else ([], last, (ts, data) :: rest)

namespace PacketOrderer

def new : PacketOrderer := ⟨[], none, none⟩

/-- The timestamp without wrap: the one of three cycles that is nearest to the highest so far. A cycle's
low half is zero, so the bits of `ts` are added. -/
def extend (o : PacketOrderer) (ts : UInt32) : ℕ × PacketOrderer :=
  match o.highestExt with
  | none => (ts.toNat, { o with highestExt := some ts.toNat })
  | some highest =>
    let cycle := highest / 2 ^ 32 * 2 ^ 32
    let ext := nearest highest ((cycle + 2 ^ 64 - 2 ^ 32) % 2 ^ 64 + ts.toNat)
      [cycle + ts.toNat, cycle + 2 ^ 32 + ts.toNat]
    (ext, if highest < ext then { o with highestExt := some ext } else o)

def release (o : PacketOrderer) (keep : ℕ) : List (ℕ × Payload) × PacketOrderer :=
  let (out, last, left) := drain keep o.lastTs o.pending
  (out, { o with pending := left, lastTs := last })

def push (o : PacketOrderer) (ts : UInt32) (data : Payload) : List (ℕ × Payload) × PacketOrderer :=
  let (ext, o) := o.extend ts
  if ∃ last ∈ o.lastTs, ext ≤ last then ([], o)
  else { o with pending := insertAbsent ext data o.pending }.release reorderDepth

def flush (o : PacketOrderer) : List (ℕ × Payload) × PacketOrderer := o.release 0

end PacketOrderer

structure OggPacket where
  data : Payload
  pageGranule : Option ℕ
  deriving DecidableEq

structure OggOpusWriter where
  sampleRate : ℕ
  granule : ℕ
  pages : List OggPacket

def OggOpusWriter.writePacketWithDuration (w : OggOpusWriter) (data : Payload) (samples : ℕ) : OggOpusWriter :=
  let granule := w.granule + max samples 1
  { w with granule := granule, pages := w.pages ++ [⟨data, some granule⟩] }

def scaleSamples (samples sampleRate : ℕ) : ℕ :=
  if sampleRate = opusClockRate then samples else samples * sampleRate / opusClockRate

structure ActiveRecording where
  writer : OggOpusWriter
  orderer : PacketOrderer
  consent : RecordingConsent
  packetsWritten : ℕ

namespace ActiveRecording

def new (sampleRate : ℕ) (consent : RecordingConsent) : ActiveRecording :=
  ⟨⟨sampleRate, 0, []⟩, .new, consent, 0⟩

def writeAll (rec : ActiveRecording) (out : List (ℕ × Payload)) : ActiveRecording :=
  out.foldl (fun rec p =>
    { rec with
      writer := rec.writer.writePacketWithDuration p.2 (scaleSamples p.1 rec.writer.sampleRate)
      packetsWritten := rec.packetsWritten + 1 }) rec

def writeOpusPacket (rec : ActiveRecording) (rtpTimestamp : UInt32) (opusData : Payload) : Bool × ActiveRecording :=
  if opusData = [] then (false, rec)
  else if rec.consent ≠ .accepted then (false, rec)
  else
    let (out, orderer) := rec.orderer.push rtpTimestamp opusData
    (true, { rec with orderer := orderer }.writeAll out)

def stop (rec : ActiveRecording) : ActiveRecording :=
  let (out, orderer) := rec.orderer.flush
  { rec with orderer := orderer }.writeAll out

end ActiveRecording

/-- What `parse_ogg_opus` reads from the pages: the packets that are not empty. -/
def OggOpusWriter.packets (w : OggOpusWriter) : List OggPacket := w.pages.filter fun p => p.data ≠ []

def record (sampleRate : ℕ) (ps : List (ℕ × Payload)) : ActiveRecording :=
  (ps.foldl (fun (rec : ActiveRecording) p => (rec.writeOpusPacket (ofNat p.1) p.2).2)
    (ActiveRecording.new sampleRate .accepted)).stop

variable {o : PacketOrderer}

lemma extend_of_near {highest next : ℕ} (hnear : next < highest + 2 ^ 31)
    (hlow : highest < next ∨ highest ≤ next + 2 ^ 31 ∧ highest < 2 ^ 64) (ho : o.highestExt = some highest) :
    o.extend (ofNat next) = (next, if highest < next then { o with highestExt := some next } else o) := by
  have hts : (ofNat next).toNat = next % 2 ^ 32 := by simp
  have hext : nearest highest ((highest / 2 ^ 32 * 2 ^ 32 + 2 ^ 64 - 2 ^ 32) % 2 ^ 64 + next % 2 ^ 32)
      [highest / 2 ^ 32 * 2 ^ 32 + next % 2 ^ 32, highest / 2 ^ 32 * 2 ^ 32 + 2 ^ 32 + next % 2 ^ 32] = next := by
    obtain ⟨cycle, low, hlow, rfl⟩ : ∃ cycle low, low < 2 ^ 32 ∧ highest = cycle * 2 ^ 32 + low :=
      ⟨highest / 2 ^ 32, highest % 2 ^ 32, Nat.mod_lt _ (by decide), (Nat.div_add_mod' _ _).symm⟩
    have hdiv : (cycle * 2 ^ 32 + low) / 2 ^ 32 = cycle := by omega
    rw [hdiv, nearest, nearest, nearest]
    by_cases hmid : absDiff (cycle * 2 ^ 32 + next % 2 ^ 32) (cycle * 2 ^ 32 + low) <
        absDiff ((cycle * 2 ^ 32 + 2 ^ 64 - 2 ^ 32) % 2 ^ 64 + next % 2 ^ 32) (cycle * 2 ^ 32 + low)
    · rw [if_pos hmid]
      split <;> simp only [absDiff] at * <;> omega
    · rw [if_neg hmid]
      split <;> simp only [absDiff] at * <;> omega
  simp only [PacketOrderer.extend, ho, hts, hext]

namespace PacketOrderer

/-- What is written of a series of packets and the flush behind it. -/
def offer (o : PacketOrderer) : List (UInt32 × Payload) → List (ℕ × Payload)
  | [] => o.flush.1
  | (ts, data) :: ps => (o.push ts data).1 ++ offer (o.push ts data).2 ps

end PacketOrderer

variable {data : Payload} {t : ℕ} (last : Option ℕ) {ps all written : List (ℕ × Payload)}

def Increasing (ps : List (ℕ × Payload)) : Prop := ps.Pairwise fun p q => p.1 < q.1

lemma insertAbsent_append (h : ∀ p ∈ ps, p.1 < t) (qs : List (ℕ × Payload)) :
    insertAbsent t data (ps ++ qs) = ps ++ insertAbsent t data qs := by
  induction ps with
  | nil => rfl
  | cons p ps ih =>
    have hp := h p mem_cons_self
    rw [cons_append, insertAbsent, if_neg (by omega), if_neg (by omega), ih fun q hq => h q (mem_cons_of_mem _ hq)]
    rfl

lemma insertAbsent_cases (t : ℕ) (data : Payload) (ps : List (ℕ × Payload)) :
    insertAbsent t data ps = ps ∧ t ∈ ps.map Prod.fst ∨ insertAbsent t data ps ~ (t, data) :: ps := by
  induction ps with
  | nil => exact .inr (.refl _)
  | cons p ps ih =>
    rw [insertAbsent]
    split
    · exact .inr (.refl _)
    · split
      · next heq => exact .inl ⟨rfl, heq ▸ mem_cons_self⟩
      · rcases ih with ⟨hsame, hmem⟩ | hperm
        · exact .inl ⟨congrArg _ hsame, mem_cons_of_mem _ hmem⟩
        · exact .inr ((hperm.cons p).trans (.swap ..))

lemma mem_insertAbsent {q : ℕ × Payload} (h : q ∈ insertAbsent t data ps) : q = (t, data) ∨ q ∈ ps := by
  rcases insertAbsent_cases t data ps with ⟨hsame, -⟩ | hperm
  · exact .inr (hsame ▸ h)
  · exact mem_cons.mp (hperm.mem_iff.mp h)

lemma Increasing.insertAbsent (h : Increasing ps) : Increasing (insertAbsent t data ps) := by
  induction ps with
  | nil => exact pairwise_singleton _ _
  | cons p ps ih =>
    obtain ⟨hp, hps⟩ := pairwise_cons.mp h
    rw [Recording.insertAbsent]
    split
    · next hlt =>
      refine pairwise_cons.mpr ⟨fun q hq => ?_, h⟩
      rcases mem_cons.mp hq with rfl | hq
      · exact hlt
      · exact lt_trans hlt (hp q hq)
    · split
      · exact h
      · next hnlt hne =>
        refine pairwise_cons.mpr ⟨fun q hq => ?_, ih hps⟩
        rcases mem_insertAbsent hq with rfl | hq
        · change p.1 < t
          omega
        · exact hp q hq

def covered : Option ℕ → List (ℕ × Payload) → List (ℕ × Payload)
  | _, [] => []
  | last, (ts, data) :: rest => (durationFor last ts, data) :: covered (some ts) rest

lemma covered_append (ps qs : List (ℕ × Payload)) :
    covered last (ps ++ qs) = covered last ps ++ covered (((ps.getLast?).map Prod.fst).or last) qs := by
  induction ps generalizing last with
  | nil => simp [covered]
  | cons p ps ih =>
    rw [cons_append, covered, ih, covered, cons_append]
    cases ps with
    | nil => simp
    | cons => simp [getLast?_cons]

lemma drain_spec (keep : ℕ) (ps : List (ℕ × Payload)) : ∃ written,
    ps = written ++ (drain keep last ps).2.2 ∧ (drain keep last ps).1 = covered last written ∧
      (drain keep last ps).2.1 = ((written.getLast?).map Prod.fst).or last ∧
      (drain keep last ps).2.2.length ≤ keep ∧ (written = [] ∨ (drain keep last ps).2.2.length = keep) := by
  induction ps generalizing last with
  | nil => exact ⟨[], rfl, rfl, rfl, Nat.zero_le _, .inl rfl⟩
  | cons p ps ih =>
    obtain ⟨ts, data⟩ := p
    rw [drain]
    split
    · next hlong =>
      obtain ⟨written, hsplit, hout, hlast, hle, hfull⟩ := ih (some ts)
      refine ⟨(ts, data) :: written, congrArg _ hsplit, congrArg _ hout, ?_, hle, .inr ?_⟩
      · simp only [hlast, getLast?_cons]
        cases written.getLast? <;> rfl
      · rcases hfull with rfl | hfull
        · have hlen : ps.length = (drain keep (some ts) ps).2.2.length := congrArg length hsplit
          change (drain keep (some ts) ps).2.2.length = keep
          omega
        · exact hfull
    · next hshort => exact ⟨[], rfl, rfl, rfl, not_lt.mp hshort, .inl rfl⟩

/-- `all` is what has been offered: first what is written, then what is pending. -/
structure Buffered (o : PacketOrderer) (all written : List (ℕ × Payload)) : Prop where
  split : all = written ++ o.pending
  last : o.lastTs = (written.getLast?).map Prod.fst
  full : written = [] ∨ o.pending.length = reorderDepth

lemma Buffered.push {high : ℕ} (h : Buffered o all written) (hall : Increasing all)
    (ho : o.highestExt = some high) (hnear : t < high + 2 ^ 31) (hlow : high < t ∨ high ≤ t + 2 ^ 31 ∧ high < 2 ^ 64)
    (hdepth : all.countP (fun p => t < p.1) ≤ reorderDepth) (data : Payload) :
    (o.push (ofNat t) data).2.highestExt = some (max high t) ∧
      ∃ written', Buffered (o.push (ofNat t) data).2 (insertAbsent t data all) written' ∧
        covered none written' = covered none written ++ (o.push (ofNat t) data).1 := by
  obtain ⟨o', ho', hpending, hlast', hhigh⟩ : ∃ o', o.extend (ofNat t) = (t, o') ∧
      o'.pending = o.pending ∧ o'.lastTs = o.lastTs ∧ o'.highestExt = some (max high t) := by
    refine ⟨_, extend_of_near hnear hlow ho, ?_⟩
    split
    · next hlt => exact ⟨rfl, rfl, congrArg _ (max_eq_right hlt.le).symm⟩
    · next hlt => exact ⟨rfl, rfl, ho.trans (congrArg _ (max_eq_left (not_lt.mp hlt)).symm)⟩
  have hincreasing := h.split ▸ hall
  have hpush : o.push (ofNat t) data = if ∃ last ∈ o.lastTs, t ≤ last then ([], o')
      else { o' with pending := insertAbsent t data o.pending }.release reorderDepth := by
    simp [PacketOrderer.push, ho', hpending, hlast']
  rw [hpush]
  split
  · -- what is not later than the last packet written is that packet again
    next hlate =>
    obtain ⟨newest, hmem, hle⟩ := hlate
    rw [h.last] at hmem
    obtain ⟨⟨newest, payload⟩, hq, rfl⟩ := Option.map_eq_some_iff.mp hmem
    obtain ⟨before, rfl⟩ := getLast?_eq_some_iff.mp hq
    obtain ⟨hbefore, hpend, hcross⟩ := pairwise_append.mp hincreasing
    have heq : t = newest := by
      refine le_antisymm hle (not_lt.mp fun hlt => ?_)
      have hpast : o.pending.countP (fun p => t < p.1) = o.pending.length := by
        refine countP_eq_length.mpr fun p hp => decide_eq_true (lt_trans hlt ?_)
        exact hcross (newest, payload) (mem_append_right _ mem_cons_self) p hp
      have hlen : o.pending.length = reorderDepth := h.full.resolve_left (by simp)
      rw [h.split, countP_append, countP_append, hpast, hlen] at hdepth
      simp only [countP_singleton, hlt, decide_true, if_true] at hdepth
      omega
    subst heq
    refine ⟨hhigh, before ++ [(t, payload)], ⟨?_, hlast'.trans h.last, ?_⟩, (append_nil _).symm⟩
    · rw [h.split, hpending, append_assoc, insertAbsent_append]
      · simp [insertAbsent]
      · exact fun p hp => (pairwise_append.mp hbefore).2.2 p hp _ mem_cons_self
    · rw [hpending]
      exact h.full
  · next hfresh =>
    obtain ⟨more, hsplit, hout, hlast, hle, hfull⟩ := drain_spec o.lastTs reorderDepth (insertAbsent t data o.pending)
    simp only [PacketOrderer.release, hlast']
    refine ⟨hhigh, written ++ more, ⟨?_, ?_, ?_⟩, ?_⟩
    · rw [append_assoc, ← hsplit, h.split]
      refine insertAbsent_append (fun p hp => ?_) _
      obtain rfl | ⟨before, q, rfl⟩ := written.eq_nil_or_concat'
      · cases hp
      · have hq : q.1 < t := not_le.mp fun hle => hfresh ⟨q.1, by simp [h.last], hle⟩
        rcases mem_append.mp hp with hp | hp
        · have hbefore := (pairwise_append.mp (pairwise_append.mp hincreasing).1).2.2 p hp q mem_cons_self
          exact lt_trans hbefore hq
        · rwa [mem_singleton.mp hp]
    · rw [hlast, h.last, getLast?_append]
      cases more.getLast? <;> rfl
    · rcases hfull with rfl | hfull
      · rcases h.full with rfl | hpend
        · exact .inl rfl
        · have hlen : (insertAbsent t data o.pending).length = _ := congrArg length hsplit
          have hgrow : o.pending.length ≤ (insertAbsent t data o.pending).length := by
            rcases insertAbsent_cases t data o.pending with ⟨hsame, -⟩ | hperm
            · rw [hsame]
            · simp [hperm.length_eq]
          rw [nil_append] at hlen
          exact .inr (le_antisymm hle (by rwa [← hlen, ← hpend]))
      · exact .inr hfull
    · rw [covered_append, hout, h.last, Option.or_none]

def Tracked : ℕ → List (ℕ × Payload) → Prop
  | _, [] => True
  | high, (t, _) :: ps =>
    t < high + 2 ^ 31 ∧ (high < t ∨ high ≤ t + 2 ^ 31 ∧ high < 2 ^ 64) ∧ Tracked (max high t) ps

def Shallow : List (ℕ × Payload) → List (ℕ × Payload) → Prop
  | _, [] => True
  | all, (t, data) :: ps =>
    all.countP (fun p => t < p.1) ≤ reorderDepth ∧ Shallow (insertAbsent t data all) ps

def inserted (all ps : List (ℕ × Payload)) : List (ℕ × Payload) :=
  ps.foldl (fun all p => insertAbsent p.1 p.2 all) all

def onWire (p : ℕ × Payload) : UInt32 × Payload := (ofNat p.1, p.2)

lemma Buffered.offer {high : ℕ} (h : Buffered o all written) (hall : Increasing all)
    (ho : o.highestExt = some high) (htracked : Tracked high ps) (hshallow : Shallow all ps) :
    covered none written ++ o.offer (ps.map onWire) = covered none (inserted all ps) := by
  induction ps generalizing o all written high with
  | nil =>
    obtain ⟨rest, hsplit, hout, -, hle, -⟩ := drain_spec o.lastTs 0 o.pending
    rw [length_eq_zero_iff.mp (Nat.le_zero.mp hle), append_nil] at hsplit
    change covered none written ++ (drain 0 o.lastTs o.pending).1 = covered none all
    rw [hout, ← hsplit, h.split, covered_append, h.last, Option.or_none]
  | cons p ps ih =>
    obtain ⟨t, data⟩ := p
    obtain ⟨hhigh, written', hnext, hout⟩ := h.push hall ho htracked.1 htracked.2.1 hshallow.1 data
    have hrest := ih hnext hall.insertAbsent hhigh htracked.2.2 hshallow.2
    rw [hout, append_assoc] at hrest
    exact hrest

lemma offer_eq (ht : t < 2 ^ 32) (htracked : Tracked t ps) (hshallow : Shallow [(t, data)] ps) :
    PacketOrderer.new.offer (((t, data) :: ps).map onWire) = covered none (inserted [(t, data)] ps) := by
  have hfirst : PacketOrderer.new.push (ofNat t) data = ([], ⟨[(t, data)], none, some t⟩) := by
    have hts : (ofNat t).toNat = t := by simpa using ht
    simp [PacketOrderer.push, PacketOrderer.new, PacketOrderer.extend, hts, insertAbsent, PacketOrderer.release, drain,
      reorderDepth]
  have hstart : Buffered ⟨[(t, data)], none, some t⟩ [(t, data)] [] := ⟨rfl, rfl, .inl rfl⟩
  rw [map_cons, onWire, PacketOrderer.offer, hfirst]
  exact hstart.offer (pairwise_singleton _ _) rfl htracked hshallow

def Near (p q : ℕ × Payload) : Prop := p.1 < q.1 ∧ q.1 < p.1 + 2 ^ 31

def gaps : ℕ → List (ℕ × Payload) → List (ℕ × Payload)
  | _, [] => []
  | prev, (ts, data) :: rest => (min (ts - prev) maxGapSamples, data) :: gaps ts rest

def pagesFrom : ℕ → List (ℕ × Payload) → List OggPacket
  | _, [] => []
  | granule, (samples, data) :: rest => ⟨data, some (granule + samples)⟩ :: pagesFrom (granule + samples) rest

lemma pagesFrom_append (granule : ℕ) (ps qs : List (ℕ × Payload)) :
    pagesFrom granule (ps ++ qs) =
      pagesFrom granule ps ++ pagesFrom (granule + (ps.map Prod.fst).sum) qs := by
  induction ps generalizing granule with
  | nil => simp [pagesFrom]
  | cons p ps ih =>
    rw [cons_append, pagesFrom, ih, pagesFrom, map_cons, sum_cons, ← add_assoc]
    rfl

lemma writeAll_pages (rec : ActiveRecording) (hrate : rec.writer.sampleRate = opusClockRate)
    (out : List (ℕ × Payload)) (hout : ∀ p ∈ out, 0 < p.1) :
    (rec.writeAll out).writer.pages = rec.writer.pages ++ pagesFrom rec.writer.granule out ∧
      (rec.writeAll out).writer.granule = rec.writer.granule + (out.map Prod.fst).sum ∧
      (rec.writeAll out).writer.sampleRate = opusClockRate ∧
      (rec.writeAll out).orderer = rec.orderer ∧ (rec.writeAll out).consent = rec.consent := by
  unfold ActiveRecording.writeAll
  induction out generalizing rec with
  | nil => simp [pagesFrom, hrate]
  | cons p out ih =>
    obtain ⟨samples, data⟩ := p
    have hpos : max samples 1 = samples := by
      have := hout (samples, data) mem_cons_self
      omega
    rw [foldl_cons]
    obtain ⟨h1, h2, h3, h4, h5⟩ := ih
      { rec with
        writer := rec.writer.writePacketWithDuration data (scaleSamples samples rec.writer.sampleRate)
        packetsWritten := rec.packetsWritten + 1 } hrate
      (fun p hp => hout p (mem_cons_of_mem _ hp))
    simp only [OggOpusWriter.writePacketWithDuration, scaleSamples, hrate, if_true, hpos] at h1 h2 h3 h4 h5
    simp only [OggOpusWriter.writePacketWithDuration, scaleSamples, hrate, if_true, hpos]
    refine ⟨?_, ?_, h3, h4, h5⟩
    · rw [h1, pagesFrom, append_assoc]
      rfl
    · rw [h2, map_cons, sum_cons, add_assoc]

lemma durationFor_pos (last : Option ℕ) (ts : ℕ) : 0 < durationFor last ts := by
  unfold durationFor defaultFrameSamples maxGapSamples
  split
  · split
    · omega
    · decide
  · decide

lemma covered_pos (last : Option ℕ) (ps : List (ℕ × Payload)) : ∀ p ∈ covered last ps, 0 < p.1 := by
  induction ps generalizing last with
  | nil => exact fun _ hp => (nomatch hp)
  | cons q ps ih =>
    obtain ⟨ts, data⟩ := q
    intro p hp
    rcases mem_cons.mp hp with rfl | hp
    · exact durationFor_pos last ts
    · exact ih (some ts) p hp

lemma offer_pos (o : PacketOrderer) (ps : List (UInt32 × Payload)) : ∀ q ∈ o.offer ps, 0 < q.1 := by
  have hrelease : ∀ (o : PacketOrderer) (keep : ℕ), ∀ q ∈ (o.release keep).1, 0 < q.1 := by
    intro o keep
    obtain ⟨written, -, hout, -⟩ := drain_spec o.lastTs keep o.pending
    change ∀ q ∈ (drain keep o.lastTs o.pending).1, 0 < q.1
    rw [hout]
    exact covered_pos _ _
  induction ps generalizing o with
  | nil => exact hrelease o 0
  | cons p ps ih =>
    intro q hq
    rcases mem_append.mp hq with hq | hq
    · simp only [PacketOrderer.push] at hq
      split at hq
      · cases hq
      · exact hrelease _ _ q hq
    · exact ih _ q hq

lemma record_from (rec : ActiveRecording) (hrate : rec.writer.sampleRate = opusClockRate)
    (hconsent : rec.consent = .accepted) (ps : List (ℕ × Payload)) (hdata : ∀ p ∈ ps, p.2 ≠ []) :
    (ps.foldl (fun (rec : ActiveRecording) p => (rec.writeOpusPacket (ofNat p.1) p.2).2)
        rec).stop.writer.pages =
      rec.writer.pages ++ pagesFrom rec.writer.granule (rec.orderer.offer (ps.map onWire)) := by
  induction ps generalizing rec with
  | nil =>
    exact (writeAll_pages { rec with orderer := rec.orderer.flush.2 } hrate _ (offer_pos rec.orderer [])).1
  | cons p ps ih =>
    obtain ⟨hpages, hgranule, hrate', horderer, hconsent'⟩ := writeAll_pages
      { rec with orderer := (rec.orderer.push (ofNat p.1) p.2).2 } hrate
      (rec.orderer.push (ofNat p.1) p.2).1
      fun q hq => offer_pos rec.orderer [onWire p] q (mem_append_left _ hq)
    have hwrite : (rec.writeOpusPacket (ofNat p.1) p.2).2 =
        ({ rec with orderer := (rec.orderer.push (ofNat p.1) p.2).2 } : ActiveRecording).writeAll
          (rec.orderer.push (ofNat p.1) p.2).1 := by
      have hne : p.2 ≠ [] := hdata p mem_cons_self
      simp [ActiveRecording.writeOpusPacket, hne, hconsent]
    rw [foldl_cons, hwrite, ih _ hrate' (hconsent'.trans hconsent) (fun q hq => hdata q (mem_cons_of_mem _ hq)),
      hpages, hgranule, horderer, append_assoc, ← pagesFrom_append]
    rfl

lemma covered_chain (hnear : ((t, data) :: ps).IsChain Near) : covered (some t) ps = gaps t ps := by
  induction ps generalizing t data with
  | nil => rfl
  | cons p ps ih =>
    obtain ⟨hp, hrest⟩ := isChain_cons_cons.mp hnear
    rw [covered, gaps, durationFor, if_pos hp.1, ih hrest]

lemma chain_inserted (all : List (ℕ × Payload)) (hnear : ((t, data) :: ps).IsChain Near) (hall : ∀ p ∈ all, p.1 ≤ t) :
    Tracked t ps ∧ Shallow all ps ∧ inserted all ps = all ++ ps := by
  induction ps generalizing all t data with
  | nil => exact ⟨trivial, trivial, (append_nil _).symm⟩
  | cons p ps ih =>
    obtain ⟨⟨hlt, hbound⟩, hrest⟩ := isChain_cons_cons.mp hnear
    have hbefore : ∀ q ∈ all, q.1 < p.1 := fun q hq => lt_of_le_of_lt (hall q hq) hlt
    have happend : insertAbsent p.1 p.2 all = all ++ [p] := by
      rw [← append_nil all, insertAbsent_append hbefore, append_nil]
      rfl
    obtain ⟨htracked, hshallow, hinserted⟩ := ih (all ++ [p]) hrest fun q hq => by
      rcases mem_append.mp hq with hq | hq
      · exact (hbefore q hq).le
      · rw [mem_singleton.mp hq]
    have hnone : all.countP (fun q => p.1 < q.1) = 0 := countP_eq_zero.mpr fun q hq =>
      by simpa using (hbefore q hq).le
    refine ⟨⟨hbound, .inl hlt, ?_⟩, ⟨hnone ▸ Nat.zero_le _, ?_⟩, ?_⟩
    · rwa [max_eq_right hlt.le]
    · rwa [happend]
    · rw [inserted, foldl_cons, happend]
      exact hinserted.trans (by rw [append_assoc]; rfl)

def raise (n : ℕ) (p : ℕ × Payload) : ℕ × Payload := (p.1 + n, p.2)

lemma gaps_raise (n t : ℕ) (ps : List (ℕ × Payload)) : gaps (t + n) (ps.map (raise n)) = gaps t ps := by
  induction ps generalizing t with
  | nil => rfl
  | cons p ps ih => simp [raise, gaps, Nat.add_sub_add_right, ← ih p.1]

lemma record_pages (p : ℕ × Payload) (ps : List (ℕ × Payload)) (hnear : (p :: ps).IsChain Near)
    (hdata : ∀ q ∈ p :: ps, q.2 ≠ []) :
    (record opusClockRate (p :: ps)).writer.pages =
      pagesFrom 0 ((defaultFrameSamples, p.2) :: gaps p.1 ps) := by
  obtain ⟨t, payload⟩ := p
  have hrecord := record_from (.new opusClockRate .accepted) rfl rfl ((t, payload) :: ps) hdata
  -- timestamps are counted from the cycle of the first one
  obtain ⟨n, t', ht', hn, rfl⟩ : ∃ n t', t' < 2 ^ 32 ∧ n % 2 ^ 32 = 0 ∧ t = t' + n :=
    ⟨t / 2 ^ 32 * 2 ^ 32, t % 2 ^ 32, by omega, by omega, by omega⟩
  obtain ⟨qs, rfl⟩ : ∃ qs, ps = map (raise n) qs := by
    have hlater := (pairwise_cons.mp (hnear.imp fun _ _ h => h.1).pairwise).1
    refine ⟨ps.map fun q => (q.1 - n, q.2), ?_⟩
    rw [map_map, eq_comm]
    refine (map_congr_left fun q hq => ?_).trans (map_id ps)
    have hle : n ≤ q.1 := (Nat.le_add_left _ _).trans (hlater q hq).le
    exact Prod.ext (Nat.sub_add_cancel hle) rfl
  have hchain : ((t', payload) :: qs).IsChain Near := by
    have hraised : (((t', payload) :: qs).map (raise n)).IsChain Near := hnear
    rw [isChain_map] at hraised
    refine hraised.imp fun p q h => ?_
    simp only [Near, raise] at h ⊢
    omega
  have hwire : ∀ q, onWire (raise n q) = onWire q := by
    intro q
    have hmod : (q.1 + n) % 2 ^ 32 = q.1 % 2 ^ 32 := by omega
    exact Prod.ext (UInt32.toNat_inj.mp (by simpa [raise, onWire] using hmod)) rfl
  obtain ⟨htracked, hshallow, hinserted⟩ := chain_inserted [(t', payload)] hchain (by simp)
  have hwires : (((t' + n, payload) :: qs.map (raise n)).map onWire) =
      ((t', payload) :: qs).map onWire := by
    rw [map_cons, map_cons, map_map]
    exact congrArg₂ _ (hwire (t', payload)) (map_congr_left fun q _ => hwire q)
  rw [hwires] at hrecord
  change _ = [] ++ pagesFrom 0 (PacketOrderer.new.offer _) at hrecord
  rw [offer_eq ht' htracked hshallow, hinserted, nil_append] at hrecord
  rw [record, hrecord, gaps_raise]
  change pagesFrom 0 (covered none ((t', payload) :: qs)) = _
  rw [covered, covered_chain hchain]
  rfl

end AurixVoice.Recording
