import AurixVoice.Recording.PacketOrderer
import Mathlib.Data.List.GetD

/-! The decoder of a track, in blocks of any size. Opus is a parameter; a frame is one sample on all channels. -/

namespace AurixVoice.Recording

open List
open Prod (fst snd)

def mixSampleRate : ℕ := 48000

def maxSilenceSamples : ℕ := 48000 * 60

variable {D α : Type} (decode : D → Payload → D × Option (List α)) (silence : α)

structure TrackDecoder (D α : Type) where
  packets : List OggPacket
  decoder : D
  granuleRate : ℕ
  position : ℕ
  buffer : List α
  gapRemaining : ℕ
  exhausted : Bool

/-- The silence before a packet that decodes to `decoded` frames on a page that ends at `granule`. -/
def gapBefore (granuleRate position decoded : ℕ) (granule : Option ℕ) : ℕ :=
  match granule with
  | some granule => min (granule * mixSampleRate / granuleRate - (position + decoded)) maxSilenceSamples
  | none => 0

namespace TrackDecoder

def new (granuleRate : ℕ) (packets : List OggPacket) (decoder : D) : TrackDecoder D α :=
  ⟨packets, decoder, granuleRate, 0, [], 0, false⟩

def pullPacket (s : TrackDecoder D α) (packet : OggPacket) (rest : List OggPacket) : TrackDecoder D α :=
  let (decoder, decoded) := decode s.decoder packet.data
  let frames := decoded.getD []
  { s with
    packets := rest
    decoder := decoder
    buffer := frames
    gapRemaining := gapBefore s.granuleRate s.position frames.length packet.pageGranule }

def fill (s : TrackDecoder D α) (room : ℕ) : List α × TrackDecoder D α :=
  if room = 0 then ([], s)
  else if 0 < s.gapRemaining then
    let n := min room s.gapRemaining
    let (out, s') := fill { s with gapRemaining := s.gapRemaining - n, position := s.position + n } (room - n)
    (replicate n silence ++ out, s')
  else if 0 < s.buffer.length then
    let n := min room s.buffer.length
    let (out, s') := fill { s with buffer := s.buffer.drop n, position := s.position + n } (room - n)
    (s.buffer.take n ++ out, s')
  else if s.exhausted then ([], s)
  else match _hpackets : s.packets with
    | [] => ([], { s with exhausted := true })
    | packet :: rest => fill (s.pullPacket decode packet rest) room
termination_by (room, s.packets.length)
decreasing_by
  · exact Prod.Lex.left _ _ (by omega)
  · exact Prod.Lex.left _ _ (by omega)
  · refine Prod.Lex.right _ ?_
    simp [pullPacket, _hpackets]

def nextBlock (s : TrackDecoder D α) (frames : ℕ) : Bool × List α × TrackDecoder D α :=
  let (out, s') := s.fill decode silence frames
  (!out.isEmpty, out ++ replicate (frames - out.length) silence, s')

def blocks (s : TrackDecoder D α) : List ℕ → List α
  | [] => []
  | frames :: sizes =>
    let (_, block, s') := s.nextBlock decode silence frames
    block ++ s'.blocks sizes

end TrackDecoder

def framesOf (granuleRate : ℕ) : ℕ → D → List OggPacket → List α
  | _, _, [] => []
  | position, decoder, packet :: rest =>
    let (decoder, decoded) := decode decoder packet.data
    let frames := decoded.getD []
    let gap := gapBefore granuleRate position frames.length packet.pageGranule
    replicate gap silence ++ frames ++
      framesOf granuleRate (position + gap + frames.length) decoder rest

namespace TrackDecoder

def remaining (s : TrackDecoder D α) : List α :=
  replicate s.gapRemaining silence ++ s.buffer ++
    if s.exhausted then []
    else framesOf decode silence s.granuleRate (s.position + s.gapRemaining + s.buffer.length) s.decoder s.packets

lemma fill_spec (s : TrackDecoder D α) (room : ℕ) :
    (s.fill decode silence room).1 = (s.remaining decode silence).take room ∧
      (s.fill decode silence room).2.remaining decode silence = (s.remaining decode silence).drop room := by
  fun_induction fill decode silence s room with
  | case1 => simp
  | case2 s room hroom hgap n out s' heq ih =>
    rw [heq] at ih
    have hsplit : s.remaining decode silence = replicate n silence ++
        ({ s with gapRemaining := s.gapRemaining - n, position := s.position + n } :
          TrackDecoder D α).remaining decode silence := by
      have hpos : s.position + n + (s.gapRemaining - n) = s.position + s.gapRemaining := by omega
      have hrep : replicate s.gapRemaining silence =
          replicate n silence ++ replicate (s.gapRemaining - n) silence := by
        rw [← replicate_add]
        congr 1
        omega
      simp only [remaining, hpos, hrep, append_assoc]
    have hlen : room = (replicate n silence).length + (room - n) := by
      simp only [length_replicate]
      omega
    rw [hsplit, hlen, take_length_add_append, drop_length_add_append]
    exact ⟨congrArg _ ih.1, ih.2⟩
  | case3 s room hroom hgap hbuf n out s' heq ih =>
    rw [heq] at ih
    have hgap0 : s.gapRemaining = 0 := by omega
    have hsplit : s.remaining decode silence = s.buffer.take n ++
        ({ s with buffer := s.buffer.drop n, position := s.position + n } :
          TrackDecoder D α).remaining decode silence := by
      have hpos : s.position + n + 0 + (s.buffer.length - n) = s.position + 0 + s.buffer.length := by omega
      simp only [remaining, hgap0, replicate_zero, nil_append, length_drop, hpos]
      rw [← append_assoc, take_append_drop]
    have hlen : room = (s.buffer.take n).length + (room - n) := by
      rw [length_take]
      omega
    rw [hsplit, hlen, take_length_add_append, drop_length_add_append]
    exact ⟨congrArg _ ih.1, ih.2⟩
  | case4 s room hroom hgap hbuf hexhausted =>
    have hempty : s.remaining decode silence = [] := by
      have hgap0 : s.gapRemaining = 0 := by omega
      have hbuf0 : s.buffer = [] := length_eq_zero_iff.mp (by omega)
      simp [remaining, hgap0, hbuf0, hexhausted]
    simp [hempty]
  | case5 s room hroom hgap hbuf hexhausted hpackets =>
    have hgap0 : s.gapRemaining = 0 := by omega
    have hbuf0 : s.buffer = [] := length_eq_zero_iff.mp (by omega)
    simp [remaining, hgap0, hbuf0, hpackets, framesOf]
  | case6 s room hroom hgap hbuf hexhausted packet rest hpackets ih =>
    have hgap0 : s.gapRemaining = 0 := by omega
    have hbuf0 : s.buffer = [] := length_eq_zero_iff.mp (by omega)
    have hpull : (s.pullPacket decode packet rest).remaining decode silence = s.remaining decode silence := by
      simp [remaining, pullPacket, hgap0, hbuf0, hpackets, hexhausted, framesOf]
    rw [← hpull]
    exact ih

lemma blocks_eq (s : TrackDecoder D α) (sizes : List ℕ) :
    s.blocks decode silence sizes = (s.remaining decode silence).take sizes.sum ++
      replicate (sizes.sum - (s.remaining decode silence).length) silence := by
  induction sizes generalizing s with
  | nil => simp [blocks]
  | cons frames sizes ih =>
    obtain ⟨hout, hrest⟩ := s.fill_spec decode silence frames
    rw [blocks, nextBlock, sum_cons]
    simp only
    rw [ih, hout, hrest]
    generalize s.remaining decode silence = track
    rw [take_add, length_take, length_drop]
    by_cases hlong : frames ≤ track.length
    · have hnone : frames - min frames track.length = 0 := by omega
      have hlen : sizes.sum - (track.length - frames) = frames + sizes.sum - track.length := by omega
      rw [hnone, hlen]
      simp
    · have hdrop : track.drop frames = [] := drop_eq_nil_of_le (by omega)
      have hsplit : frames + sizes.sum - track.length =
          (frames - min frames track.length) + (sizes.sum - (track.length - frames)) := by omega
      rw [hdrop, hsplit, replicate_add]
      simp

end TrackDecoder

def decodedBy : D → List Payload → List (List α)
  | _, [] => []
  | decoder, data :: rest => (decode decoder data).2.getD [] :: decodedBy (decode decoder data).1 rest

def place : List ℕ → ℕ → ℕ
  | t :: u :: ts, i + 1 => min (u - t) maxGapSamples + place (u :: ts) i
  | _, _ => 0

/-- Twenty milliseconds apart or more, and near enough for a 32-bit timestamp. -/
def Spaced (p q : ℕ × Payload) : Prop := p.1 + defaultFrameSamples ≤ q.1 ∧ q.1 < p.1 + 2 ^ 31

lemma gapBefore_page (position : ℕ) {samples : ℕ} (hlow : defaultFrameSamples ≤ samples)
    (hhigh : samples ≤ maxGapSamples) :
    gapBefore opusClockRate position defaultFrameSamples (some (position + samples)) =
      samples - defaultFrameSamples := by
  unfold maxGapSamples at hhigh
  simp only [gapBefore, opusClockRate, mixSampleRate, maxSilenceSamples]
  rw [Nat.mul_div_cancel _ (by decide : 0 < 48000)]
  omega

lemma framesOf_gaps (ps : List (ℕ × Payload)) (position : ℕ) {t : ℕ} {data : Payload} {decoder : D}
    (hspaced : ((t, data) :: ps).IsChain Spaced)
    (hframes : ∀ f ∈ decodedBy decode decoder (ps.map snd), f.length = defaultFrameSamples) {i j : ℕ}
    {frames : List α} (hi : (decodedBy decode decoder (ps.map snd))[i]? = some frames)
    (hj : j < defaultFrameSamples) :
    defaultFrameSamples ≤ place (t :: ps.map fst) (i + 1) ∧
      (framesOf decode silence opusClockRate position decoder
        (pagesFrom position (gaps t ps)))[place (t :: ps.map fst) (i + 1) - defaultFrameSamples + j]? =
          frames[j]? := by
  induction ps generalizing t position data decoder i with
  | nil => cases hi
  | cons p ps ih =>
    obtain ⟨u, payload⟩ := p
    rw [isChain_cons_cons] at hspaced
    obtain ⟨⟨hlow, _⟩, hrest⟩ := hspaced
    have hsamples : defaultFrameSamples ≤ min (u - t) maxGapSamples := by
      unfold defaultFrameSamples at *
      unfold maxGapSamples
      omega
    have hlen : ((decode decoder payload).2.getD []).length = defaultFrameSamples :=
      hframes _ mem_cons_self
    have hgap := gapBefore_page position hsamples (min_le_right _ _)
    -- the packet's silence and frame end where its page does
    have hnext : position + (min (u - t) maxGapSamples - defaultFrameSamples) + defaultFrameSamples =
        position + min (u - t) maxGapSamples := by omega
    simp only [gaps, pagesFrom, framesOf, hlen, hgap, hnext, map_cons, place]
    cases i with
    | zero =>
      have hfirst : (decode decoder payload).2.getD [] = frames := Option.some.inj hi
      refine ⟨by simpa [place] using hsamples, ?_⟩
      rw [append_assoc, getElem?_append_right (by simp [place]), hfirst,
        getElem?_append_left (by rw [← hfirst, hlen]; simpa [place] using hj)]
      simp [place]
    | succ i =>
      obtain ⟨hge, hplaced⟩ := ih (position + min (u - t) maxGapSamples) hrest
        (fun f hf => hframes f (mem_cons_of_mem _ hf)) hi
      refine ⟨le_trans hge (Nat.le_add_left _ _), ?_⟩
      have hbefore : (replicate (min (u - t) maxGapSamples - defaultFrameSamples) silence ++
          (decode decoder payload).2.getD []).length = min (u - t) maxGapSamples := by
        rw [length_append, length_replicate, hlen]
        omega
      have hindex : min (u - t) maxGapSamples + place (u :: ps.map fst) (i + 1) - defaultFrameSamples + j -
          min (u - t) maxGapSamples = place (u :: ps.map fst) (i + 1) - defaultFrameSamples + j := by
        omega
      rw [getElem?_append_right (by omega), hbefore, hindex]
      exact hplaced

lemma place_eq_sub {t : ℕ} {data : Payload} (ps : List (ℕ × Payload))
    (hchain : ((t, data) :: ps).IsChain fun p q => p.1 ≤ q.1 ∧ q.1 ≤ p.1 + maxGapSamples) {i u : ℕ}
    (hu : (t :: ps.map fst)[i]? = some u) : t + place (t :: ps.map fst) i = u := by
  induction ps generalizing t data i with
  | nil =>
    cases i with
    | zero => simpa [place] using hu
    | succ => simp at hu
  | cons p ps ih =>
    rw [isChain_cons_cons] at hchain
    obtain ⟨⟨hle, hgap⟩, hrest⟩ := hchain
    cases i with
    | zero => simpa [place] using hu
    | succ i =>
      have hih := ih hrest (i := i) (by simpa using hu)
      rw [map_cons, place, ← hih]
      omega

def readBack (decoder : D) (ps : List (ℕ × Payload)) (sizes : List ℕ) : List α :=
  (TrackDecoder.new opusClockRate (record opusClockRate ps).writer.packets decoder).blocks decode silence sizes

lemma packets_pagesFrom (granule : ℕ) (qs : List (ℕ × Payload)) (h : ∀ q ∈ qs, q.2 ≠ []) :
    (pagesFrom granule qs).filter (fun p => p.data ≠ []) = pagesFrom granule qs := by
  induction qs generalizing granule with
  | nil => rfl
  | cons q qs ih =>
    obtain ⟨samples, data⟩ := q
    have hq : data ≠ [] := h _ mem_cons_self
    rw [pagesFrom, filter_cons_of_pos (by simpa using hq), ih _ fun r hr => h r (mem_cons_of_mem _ hr)]

lemma gaps_data {ps : List (ℕ × Payload)} (h : ∀ p ∈ ps, p.2 ≠ []) (t : ℕ) : ∀ q ∈ gaps t ps, q.2 ≠ [] := by
  induction ps generalizing t with
  | nil => exact fun _ hq => (nomatch hq)
  | cons p ps ih =>
    obtain ⟨u, payload⟩ := p
    intro q hq
    rcases mem_cons.mp hq with rfl | hq
    · exact h (u, payload) mem_cons_self
    · exact ih (fun r hr => h r (mem_cons_of_mem _ hr)) u q hq

lemma readBack_eq (decoder : D) (p : ℕ × Payload) (ps : List (ℕ × Payload)) (sizes : List ℕ)
    (hnear : (p :: ps).IsChain Near) (hdata : ∀ q ∈ p :: ps, q.2 ≠ []) {track : List α}
    (htrack : framesOf decode silence opusClockRate 0 decoder
      (pagesFrom 0 ((defaultFrameSamples, p.2) :: gaps p.1 ps)) = track) :
    readBack decode silence decoder (p :: ps) sizes =
      track.take sizes.sum ++ replicate (sizes.sum - track.length) silence := by
  have hpackets : (record opusClockRate (p :: ps)).writer.packets =
      pagesFrom 0 ((defaultFrameSamples, p.2) :: gaps p.1 ps) := by
    unfold OggOpusWriter.packets
    rw [record_pages p ps hnear hdata]
    refine packets_pagesFrom 0 _ fun q hq => ?_
    rcases mem_cons.mp hq with rfl | hq
    · exact hdata p mem_cons_self
    · exact gaps_data (fun r hr => hdata r (mem_cons_of_mem _ hr)) p.1 q hq
  unfold readBack
  rw [hpackets, TrackDecoder.blocks_eq]
  simp [TrackDecoder.remaining, TrackDecoder.new, htrack]

lemma isChain_near {ps : List (ℕ × Payload)} (h : ps.IsChain Spaced) : ps.IsChain Near :=
  h.imp fun _ _ hpq => ⟨by have := hpq.1; unfold defaultFrameSamples at this; omega, hpq.2⟩

/-- A packet of the speaker is read back at the sum of the timestamp differences before it, each cut to
five seconds: at its own distance from the first packet as long as no pause was longer. -/
theorem packet_placed (decoder : D) (ps : List (ℕ × Payload)) (hdata : ∀ p ∈ ps, p.2 ≠ []) (hspaced : ps.IsChain Spaced)
    (hframes : ∀ f ∈ decodedBy decode decoder (ps.map snd), f.length = defaultFrameSamples) (sizes : List ℕ)
    {i j t : ℕ} {frames : List α} (ht : (ps.map fst)[i]? = some t)
    (hi : (decodedBy decode decoder (ps.map snd))[i]? = some frames) (hj : j < defaultFrameSamples)
    (hread : place (ps.map fst) i + j < sizes.sum) :
    (readBack decode silence decoder ps sizes)[place (ps.map fst) i + j]? = frames[j]? ∧
      ((ps.IsChain fun p q => q.1 ≤ p.1 + maxGapSamples) →
        (ps.map fst).headD 0 + place (ps.map fst) i = t) := by
  cases ps with
  | nil => cases hi
  | cons p ps =>
    obtain ⟨t₀, payload⟩ := p
    have hfirst : ((decode decoder payload).2.getD []).length = defaultFrameSamples :=
      hframes _ mem_cons_self
    constructor
    · rw [readBack_eq decode silence decoder _ ps sizes (isChain_near hspaced) hdata rfl]
      -- the first packet starts the track, and the others follow as the gaps say
      have htrack : framesOf decode silence opusClockRate 0 decoder
          (pagesFrom 0 ((defaultFrameSamples, payload) :: gaps t₀ ps)) =
            (decode decoder payload).2.getD [] ++
              framesOf decode silence opusClockRate defaultFrameSamples (decode decoder payload).1
                (pagesFrom defaultFrameSamples (gaps t₀ ps)) := by
        have hgap : gapBefore opusClockRate 0 defaultFrameSamples (some (0 + defaultFrameSamples)) = 0 :=
          gapBefore_page 0 le_rfl (by decide)
        simp only [pagesFrom, framesOf, hfirst, hgap]
        simp
      have hplaced : (framesOf decode silence opusClockRate 0 decoder
          (pagesFrom 0 ((defaultFrameSamples, payload) :: gaps t₀ ps)))[
            place (t₀ :: ps.map fst) i + j]? = frames[j]? := by
        rw [htrack]
        cases i with
        | zero =>
          have hframe : (decode decoder payload).2.getD [] = frames := Option.some.inj hi
          have hzero : place (t₀ :: ps.map fst) 0 = 0 := by simp [place]
          rw [hzero, zero_add, hframe, getElem?_append_left (by rw [← hframe, hfirst]; exact hj)]
        | succ i =>
          obtain ⟨hge, hrest⟩ := framesOf_gaps decode silence ps defaultFrameSamples hspaced
            (fun f hf => hframes f (mem_cons_of_mem _ hf)) hi hj
          have hindex : place (t₀ :: ps.map fst) (i + 1) + j - defaultFrameSamples =
              place (t₀ :: ps.map fst) (i + 1) - defaultFrameSamples + j := by omega
          rw [getElem?_append_right (by omega), hfirst, hindex]
          exact hrest
      have hlt : j < frames.length := by
        rw [hframes frames (mem_of_getElem? hi)]
        exact hj
      rw [getElem?_eq_getElem hlt] at hplaced ⊢
      have hbound := (List.getElem?_eq_some_iff.mp hplaced).1
      simp only [map_cons] at hread ⊢
      rw [getElem?_append_left (by rw [length_take]; omega), getElem?_take_of_lt hread]
      exact hplaced
    · intro hpauses
      have hchain : ((t₀, payload) :: ps).IsChain fun p q => p.1 ≤ q.1 ∧ q.1 ≤ p.1 + maxGapSamples :=
        isChain_iff_getElem.mpr fun n hn =>
          ⟨le_trans (Nat.le_add_right _ _) (isChain_iff_getElem.mp hspaced n hn).1,
            isChain_iff_getElem.mp hpauses n hn⟩
      exact place_eq_sub ps hchain ht

namespace Sample

def repeated (_ : Unit) (data : Payload) : Unit × Option (List UInt8) :=
  ((), some (replicate defaultFrameSamples (data.headD 0)))

lemma length_decodedBy_repeated (data : List Payload) :
    ∀ f ∈ decodedBy repeated () data, f.length = defaultFrameSamples := by
  induction data with
  | nil => exact fun _ hf => (nomatch hf)
  | cons p ps ih =>
    intro f hf
    rcases mem_cons.mp hf with rfl | hf
    · exact length_replicate
    · exact ih f hf

theorem packet_placed_after_pause :
    (readBack repeated 0 () [(0, [1]), (144000, [2])] [150000])[place [0, 144000] 1 + 5]? =
        (replicate defaultFrameSamples (2 : UInt8))[5]? ∧
      (([(0, [1]), (144000, [2])] : List (ℕ × Payload)).IsChain (fun p q => q.1 ≤ p.1 + maxGapSamples) →
        0 + place [0, 144000] 1 = 144000) :=
  packet_placed repeated 0 () [(0, [1]), (144000, [2])] (by simp) (by simp [Spaced, defaultFrameSamples])
    (length_decodedBy_repeated _) [150000] rfl rfl (by decide) (by decide)

lemma length_parts (a b c : ℕ) (x y z : UInt8) :
    (replicate a x ++ (replicate b y ++ replicate c z)).length = a + (b + c) := by
  simp

lemma getElem?_third {a b c n : ℕ} {x y z : UInt8} (hlow : a + b ≤ n) (hhigh : n < a + b + c) :
    (replicate a x ++ (replicate b y ++ replicate c z))[n]? = some z := by
  rw [getElem?_append_right (by rw [length_replicate]; omega), length_replicate,
    getElem?_append_right (by rw [length_replicate]; omega), length_replicate,
    getElem?_replicate, if_pos (by omega)]

theorem long_pause_shortened :
    let track := readBack repeated 0 () [(0, [1]), (288000, [2])] [300000]
    track[240000]? = some 2 ∧ track[288000]? = some 0 := by
  intro track
  have hframes : framesOf repeated 0 opusClockRate 0 ()
      (pagesFrom 0 ((defaultFrameSamples, [1]) :: gaps 0 [(288000, [2])])) =
        replicate 960 1 ++ (replicate 239040 0 ++ replicate 960 2) := by
    have hfirst : gapBefore opusClockRate 0 960 (some (0 + defaultFrameSamples)) = 0 := by decide
    have hsecond : gapBefore opusClockRate 960 960
        (some (defaultFrameSamples + min (288000 - 0) maxGapSamples)) = 239040 := by decide
    simp only [gaps, pagesFrom, framesOf, repeated, Option.getD_some, defaultFrameSamples, length_replicate,
      headD_cons] at hfirst hsecond ⊢
    rw [hfirst, hsecond, replicate_zero, nil_append, append_nil]
  have hlength : (replicate 960 1 ++ (replicate 239040 0 ++ replicate 960 2) :
      List UInt8).length = 240960 := length_parts 960 239040 960 1 0 2
  have htrack := readBack_eq repeated 0 () (0, [1]) [(288000, [2])] [300000] (by simp [Near]) (by simp) hframes
  rw [take_of_length_le (by rw [hlength]; decide), hlength] at htrack
  simp only [track, htrack]
  constructor
  · rw [getElem?_append_left (by rw [hlength]; decide)]
    exact getElem?_third (by decide) (by decide)
  · rw [getElem?_append_right (by rw [hlength]; decide), hlength, getElem?_replicate, if_pos (by decide)]

end Sample

end AurixVoice.Recording
