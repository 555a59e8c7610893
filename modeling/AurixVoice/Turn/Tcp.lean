import AurixVoice.Library.Cutter
import AurixVoice.Turn.Handler
import AurixVoice.Turn.Walk

/-! TURN over TCP. The size check is made on everything buffered after a read, before a frame is taken off. -/

namespace AurixVoice.Turn

open StunMessage (decode)
open Cutter StunMessage List

def tcpMaxFrame : ℕ := 64 * 1024
def usizeMax : ℕ := 2 ^ 64 - 1

def tcpFrameLen (buf : Bytes) : Option ℕ :=
  if buf.length < 4 then none
  else if buf.getD 0 0 &&& 0xC0 = 0x40 then
    let len := (getU16 (buf.drop 2)).1.toNat
    some (4 + len + padding len)
  else if buf.getD 0 0 &&& 0xC0 = 0x00 then
    if buf.length < stunHeaderSize then none else some ((stunFrameLen buf).getD usizeMax)
  else some usizeMax

inductive HandlerCall
  | channelData (frame : Bytes)
  | stun (msg : StunMessage) (frame : Bytes)

def HandlerCall.frame : HandlerCall → Bytes
  | channelData frame => frame
  | stun _ frame => frame

def handOver (frame : Bytes) : List HandlerCall :=
  if TurnHandler.isChannelData frame then [.channelData frame]
  else match decode frame with
    | .error _ => []
    | .ok msg => [.stun msg frame]

variable {buf f : Bytes} {n : ℕ} {reads : List Bytes}

lemma tcpFrameLen_pos (h : tcpFrameLen buf = some n) : 0 < n := by
  unfold tcpFrameLen at h
  split at h
  · cases h
  · split at h
    · cases h
      omega
    · split at h
      · split at h
        · cases h
        · cases h
          unfold stunFrameLen
          split
          · decide
          · split
            · decide
            · split
              · decide
              · simp only [Option.getD_some, stunHeaderSize]
                omega
      · cases h
        decide

def takeFrames (buf : Bytes) : List HandlerCall × Bytes :=
  match _h : tcpFrameLen buf with
  | none => ([], buf)
  | some n =>
    if tcpMaxFrame < n then ([], [])
    else if _hlen : buf.length < n then ([], buf)
    else
      let (calls, rest) := takeFrames (buf.drop n)
      (handOver (buf.take n) ++ calls, rest)
termination_by buf.length
decreasing_by
  have hpos := tcpFrameLen_pos _h
  rw [length_drop]
  omega

/-- The reads of a connection: what the handler is given, and what is left in the buffer. There is no
buffer once the size check has closed the connection. -/
def serveReads (buf : Bytes) : List Bytes → List HandlerCall × Option Bytes
  | [] => ([], some buf)
  | chunk :: chunks =>
    if tcpMaxFrame < (buf ++ chunk).length then ([], none)
    else
      let (calls, buf) := takeFrames (buf ++ chunk)
      let (more, last) := serveReads buf chunks
      (calls ++ more, last)

def cutTcp (buf : Bytes) : Cut Unit :=
  match tcpFrameLen buf with
  | none => .more
  | some n => if tcpMaxFrame < n then .refuse () else if buf.length < n then .more else .frame n

lemma tcpFrameLen_append (h : tcpFrameLen buf = some n) (more : Bytes) : tcpFrameLen (buf ++ more) = some n := by
  have hfour : ¬ buf.length < 4 := by
    intro hs
    rw [tcpFrameLen, if_pos hs] at h
    cases h
  have hfirst : (buf ++ more).getD 0 0 = buf.getD 0 0 := by
    simp only [getD_eq_getElem?_getD]
    rw [getElem?_append_left (by omega)]
  have hslice : ∀ i k, i + k ≤ buf.length → ((buf ++ more).drop i).take k = (buf.drop i).take k := by
    intro i k hik
    rw [drop_append_of_le_length (by omega), take_append_of_le_length (by rw [length_drop]; omega)]
  have hlen : (getU16 ((buf ++ more).drop 2)).1 = (getU16 (buf.drop 2)).1 := by
    rw [getU16, getU16, hslice 2 2 (by omega)]
  have hstun : stunHeaderSize ≤ buf.length →
      stunFrameLen (buf ++ more) = stunFrameLen buf := by
    intro hs
    have hcookie : (getU32 ((buf ++ more).drop 4)).1 = (getU32 (buf.drop 4)).1 := by
      rw [getU32, getU32, hslice 4 4 (by rw [stunHeaderSize] at hs; omega)]
    unfold stunFrameLen
    rw [hfirst, hlen, hcookie, if_neg (by rw [length_append]; omega), if_neg (not_lt.mpr hs)]
  unfold tcpFrameLen at h ⊢
  rw [if_neg (by rw [length_append]; omega), hfirst, hlen]
  rw [if_neg hfour] at h
  split
  next hchannel =>
    rw [if_pos hchannel] at h
    exact h
  next hchannel =>
    rw [if_neg hchannel] at h
    split
    next hkind =>
      rw [if_pos hkind] at h
      split at h
      · cases h
      next hs =>
        rw [if_neg (by rw [length_append]; omega), hstun (not_lt.mp hs)]
        exact h
    next hkind =>
      rw [if_neg hkind] at h
      exact h

lemma cutTcp_append (more : Bytes) (h : cutTcp buf ≠ .more) : cutTcp (buf ++ more) = cutTcp buf := by
  unfold cutTcp at h ⊢
  cases hlen : tcpFrameLen buf with
  | none => rw [hlen] at h; exact absurd rfl h
  | some =>
    rw [hlen] at h
    rw [tcpFrameLen_append hlen more]
    dsimp only at h ⊢
    split
    · rfl
    next hmax =>
      rw [if_neg hmax] at h
      split at h
      · exact absurd rfl h
      next hfull => rw [if_neg hfull, if_neg (by rw [length_append]; omega)]

lemma cutTcp_eq_frame (h : cutTcp buf = .frame n) : tcpFrameLen buf = some n ∧ n ≤ tcpMaxFrame ∧ n ≤ buf.length := by
  unfold cutTcp at h
  cases hlen : tcpFrameLen buf with
  | none => rw [hlen] at h; cases h
  | some =>
    rw [hlen] at h
    dsimp only at h
    split at h
    · cases h
    · split at h
      · cases h
      · cases h
        exact ⟨rfl, by omega, by omega⟩

def tcpCutter : Cutter UInt8 Unit where
  cut := cutTcp
  pos h := tcpFrameLen_pos (cutTcp_eq_frame h).1
  le_length h := (cutTcp_eq_frame h).2.2
  stable := cutTcp_append

lemma takeFrames_eq (h : (tcpCutter.parse buf).refused = none) :
    takeFrames buf = ((tcpCutter.parse buf).frames.flatMap handOver, (tcpCutter.parse buf).rest) := by
  fun_induction takeFrames buf with
  | case1 buf hlen =>
    rw [parse_of_more (by simp [tcpCutter, cutTcp, hlen])]
    rfl
  | case2 buf n hlen hmax =>
    rw [parse_of_refuse (e := ()) (by simp [tcpCutter, cutTcp, hlen, hmax])] at h
    cases h
  | case3 buf n hlen hmax hshort =>
    rw [parse_of_more (by simp [tcpCutter, cutTcp, hlen, hmax, hshort])]
    rfl
  | case4 buf n hlen hmax hfull calls rest heq ih =>
    rw [parse_of_frame (n := n) (by simp [tcpCutter, cutTcp, hlen, hmax, hfull])] at h ⊢
    rw [heq] at ih
    obtain ⟨rfl, rfl⟩ := Prod.mk.inj (ih h)
    simp

def Fits (buf : Bytes) : List Bytes → Prop
  | [] => True
  | chunk :: chunks => (buf ++ chunk).length ≤ tcpMaxFrame ∧ Fits (tcpCutter.parse (buf ++ chunk)).rest chunks

lemma serveReads_eq (buf : Bytes) (chunks : List Bytes)
    (h : (tcpCutter.parse (buf ++ chunks.flatten)).refused = none) (hbuf : cutTcp buf = .more) :
    (Fits buf chunks → serveReads buf chunks = ((tcpCutter.parse (buf ++ chunks.flatten)).frames.flatMap handOver,
      some (tcpCutter.parse (buf ++ chunks.flatten)).rest)) ∧
    (¬ Fits buf chunks → (serveReads buf chunks).2 = none) := by
  induction chunks generalizing buf with
  | nil =>
    refine ⟨fun _ => ?_, fun hfits => absurd trivial hfits⟩
    rw [flatten_nil, append_nil, parse_of_more hbuf]
    rfl
  | cons chunk chunks ih =>
    rw [flatten_cons, ← append_assoc] at h ⊢
    have hfirst : (tcpCutter.parse (buf ++ chunk)).refused = none := refused_of_append h
    have happend := parse_append (buf ++ chunk) chunks.flatten hfirst
    have hmore : cutTcp (tcpCutter.parse (buf ++ chunk)).rest = .more := cut_rest hfirst
    have hlater := happend ▸ h
    obtain ⟨hserved, hclosed⟩ := ih _ hlater hmore
    rw [serveReads]
    by_cases hsize : tcpMaxFrame < (buf ++ chunk).length
    · rw [if_pos hsize]
      exact ⟨fun hfits => absurd hfits.1 (not_le.mpr hsize), fun _ => rfl⟩
    · rw [if_neg hsize, takeFrames_eq hfirst]
      constructor
      · intro hfits
        dsimp only
        rw [hserved hfits.2, happend]
        simp
      · intro hfits
        apply hclosed
        intro hrest
        exact hfits ⟨not_lt.mp hsize, hrest⟩

lemma parse_nil : tcpCutter.parse [] = ⟨[], none, []⟩ := parse_of_more rfl

variable {frames : List Bytes}

lemma fits_iff (hframes : ∀ f ∈ frames, tcpCutter.IsFrame f) (before buf : Bytes)
    (chunks : List Bytes) (hsplit : before ++ chunks.flatten = frames.flatten)
    (hbuf : (tcpCutter.parse before).rest = buf) :
    Fits buf chunks ↔ ∀ first chunk later, chunks = first ++ chunk :: later →
      unfinished frames (before ++ first.flatten).length + chunk.length ≤ tcpMaxFrame := by
  have hwhole : (tcpCutter.parse frames.flatten).refused = none := by
    have hparse := parse_flatten hframes []
    rw [append_nil] at hparse
    rw [hparse, parse_nil]
    rfl
  induction chunks generalizing before buf with
  | nil => simp [Fits]
  | cons chunk chunks ih =>
    rw [flatten_cons, ← append_assoc] at hsplit
    have hnone : (tcpCutter.parse (before ++ chunk)).refused = none := by
      rw [← hsplit] at hwhole
      exact refused_of_append hwhole
    have hlen : buf.length = unfinished frames before.length := by
      rw [← hbuf]
      rw [append_assoc] at hsplit
      exact length_rest hframes hsplit
    have hnext : (tcpCutter.parse (before ++ chunk)).rest = (tcpCutter.parse (buf ++ chunk)).rest := by
      rw [parse_append before chunk (refused_of_append hnone), hbuf]
      rfl
    have hrest := ih _ _ hsplit hnext
    constructor
    · rintro ⟨hfirst, hfits⟩ first chunk' later heq
      cases first with
      | nil =>
        obtain ⟨rfl, -⟩ := cons.inj heq
        rw [length_append, hlen] at hfirst
        simpa using hfirst
      | cons c first =>
        obtain ⟨rfl, htail⟩ := cons.inj heq
        have hlater := hrest.mp hfits first chunk' later htail
        rwa [append_assoc, ← flatten_cons] at hlater
    · intro hall
      refine ⟨?_, hrest.mpr fun first chunk' later heq => ?_⟩
      · have hfirst := hall [] chunk chunks rfl
        rw [flatten_nil, append_nil, ← hlen] at hfirst
        rwa [length_append]
      have hlater := hall (chunk :: first) chunk' later (by rw [heq, cons_append])
      rwa [flatten_cons, ← append_assoc] at hlater

def WellFormedFrame (f : Bytes) : Prop :=
  (∃ m, decode f = .ok m) ∨
  (TurnHandler.isChannelData f = true ∧ 4 ≤ f.length ∧
    f.length = 4 + (getU16 (f.drop 2)).1.toNat + padding (getU16 (f.drop 2)).1.toNat)

lemma first_byte_of_decode {m : StunMessage} (h : decode f = .ok m) : f.getD 0 0 &&& 0xC0 = 0 := by
  obtain ⟨hlen, -, htype, -, -, -, -⟩ := decode_eq_ok_iff.mp h
  have hraw := StunMessageType.toU16_fromU16 htype
  cases f with
  | nil => exact absurd hlen (by decide)
  | cons a f =>
    cases f with
    | nil =>
      rw [length_singleton] at hlen
      exact absurd hlen (by decide)
    | cons b =>
      have ha := a.toNat_lt
      have hb := b.toNat_lt
      have hnat : m.msgType.toU16.toNat = a.toNat * 256 + b.toNat := by
        rw [hraw]
        simp only [getU16, take_succ_cons, take_zero, ofBe, length_cons, length_nil, UInt16.toNat_ofNat']
        omega
      have hsmall : m.msgType.toU16.toNat < 512 := by cases m.msgType <;> decide
      have hone : a = 0 ∨ a = 1 := by
        have hcase : a.toNat = 0 ∨ a.toNat = 1 := by omega
        exact hcase.imp UInt8.toNat_inj.mp UInt8.toNat_inj.mp
      rw [getD_cons_zero]
      obtain rfl | rfl := hone <;> decide

lemma isFrame_of_wellFormed (h : WellFormedFrame f) (hmax : f.length ≤ tcpMaxFrame) : tcpCutter.IsFrame f := by
  have hlen : tcpFrameLen f = some f.length := by
    unfold tcpFrameLen
    obtain ⟨m, hm⟩ | ⟨hchannel, hfour, hsize⟩ := h
    · have hfirst := first_byte_of_decode hm
      obtain ⟨hhead, hcookie, -, -, -, hsize, -⟩ := decode_eq_ok_iff.mp hm
      rw [if_neg (by rw [stunHeaderSize] at hhead; omega), hfirst, if_neg (by decide), if_pos rfl,
        if_neg (not_lt.mpr hhead), stunFrameLen, if_neg (not_lt.mpr hhead), hfirst,
        if_neg (by decide), if_neg (not_not.mpr hcookie), Option.getD_some, ← hsize]
    · rw [if_neg (not_lt.mpr hfour), if_pos (of_decide_eq_true hchannel)]
      exact congrArg some hsize.symm
  change cutTcp f = _
  rw [cutTcp, hlen]
  dsimp only
  rw [if_neg (not_lt.mpr hmax), if_neg (Nat.lt_irrefl _)]

lemma handOver_of_wellFormed (h : WellFormedFrame f) : (handOver f).map HandlerCall.frame = [f] := by
  unfold handOver
  obtain ⟨m, hm⟩ | ⟨hchannel, -⟩ := h
  · have hnot : ¬ TurnHandler.isChannelData f = true := by
      rw [TurnHandler.isChannelData, first_byte_of_decode hm]
      decide
    rw [if_neg hnot, hm]
    rfl
  · rw [if_pos hchannel]
    rfl

lemma map_handOver (h : ∀ f ∈ frames, WellFormedFrame f) :
    (frames.flatMap handOver).map HandlerCall.frame = frames := by
  induction frames with
  | nil => rfl
  | cons f frames ih =>
    obtain ⟨hf, hrest⟩ := forall_mem_cons.mp h
    rw [flatMap_cons, map_append, handOver_of_wellFormed hf, ih hrest, singleton_append]

lemma serveReads_wellFormed (hframes : ∀ f ∈ frames, WellFormedFrame f)
    (hmax : ∀ f ∈ frames, f.length ≤ tcpMaxFrame) (hsplit : reads.flatten = frames.flatten) :
    ((∀ first chunk later, reads = first ++ chunk :: later →
        unfinished frames first.flatten.length + chunk.length ≤ tcpMaxFrame) →
      serveReads [] reads = (frames.flatMap handOver, some [])) ∧
    (¬ (∀ first chunk later, reads = first ++ chunk :: later →
        unfinished frames first.flatten.length + chunk.length ≤ tcpMaxFrame) →
      (serveReads [] reads).2 = none) := by
  have hall : ∀ f ∈ frames, tcpCutter.IsFrame f := fun f hf => isFrame_of_wellFormed (hframes f hf) (hmax f hf)
  have hparse : tcpCutter.parse frames.flatten = ⟨frames, none, []⟩ := by
    have hflatten := parse_flatten hall []
    rw [append_nil, parse_nil] at hflatten
    rw [hflatten]
    simp [Parse.after]
  have hserve := serveReads_eq [] reads (by rw [nil_append, hsplit, hparse]) rfl
  rw [nil_append, hsplit, hparse] at hserve
  have hfits := fits_iff hall [] [] reads (by rw [nil_append, hsplit]) (by rw [parse_nil])
  rwa [hfits] at hserve

theorem segmentation_insensitive_iff (frames reads : List Bytes) (hframes : ∀ f ∈ frames, WellFormedFrame f)
    (hmax : ∀ f ∈ frames, f.length ≤ tcpMaxFrame) (hsplit : reads.flatten = frames.flatten) :
    ((serveReads [] reads).1.map HandlerCall.frame = frames ∧ (serveReads [] reads).2 ≠ none) ↔
      ∀ first chunk later, reads = first ++ chunk :: later →
        unfinished frames first.flatten.length + chunk.length ≤ tcpMaxFrame := by
  obtain ⟨hserved, hclosed⟩ := serveReads_wellFormed hframes hmax hsplit
  constructor
  · rintro ⟨-, hopen⟩
    by_contra hroom
    exact hopen (hclosed hroom)
  · intro hroom
    rw [hserved hroom]
    exact ⟨map_handOver hframes, by simp⟩

lemma room_of_short (h : reads.flatten.length ≤ tcpMaxFrame) :
    ∀ first chunk later, reads = first ++ chunk :: later →
      unfinished frames first.flatten.length + chunk.length ≤ tcpMaxFrame := by
  intro first chunk later heq
  have hle := unfinished_le frames first.flatten.length
  rw [heq, flatten_append, flatten_cons, length_append, length_append] at h
  omega

theorem segmentation_insensitive_two_frames :
    (serveReads [] [[0x40, 0, 0], [1, 9, 0, 0, 0, 0x40], [1, 0, 0]]).1.map HandlerCall.frame =
      [[0x40, 0, 0, 1, 9, 0, 0, 0], [0x40, 1, 0, 0]] := by
  have hframes : ∀ f ∈ ([[0x40, 0, 0, 1, 9, 0, 0, 0], [0x40, 1, 0, 0]] : List Bytes), WellFormedFrame f := by
    intro f hf
    right
    revert f
    decide
  have hmax : ∀ f ∈ ([[0x40, 0, 0, 1, 9, 0, 0, 0], [0x40, 1, 0, 0]] : List Bytes), f.length ≤ tcpMaxFrame := by
    decide
  exact ((segmentation_insensitive_iff _ [[0x40, 0, 0], [1, 9, 0, 0, 0, 0x40], [1, 0, 0]] hframes hmax rfl).mpr
    (room_of_short (by decide))).1

def zeros (n : ℕ) : Bytes := replicate n 0

@[simp] lemma length_zeros (n : ℕ) : (zeros n).length = n := length_replicate

def largeFrames : List Bytes := [[0x40, 0, 0xFF, 0xFC] ++ zeros 65532, [0x40, 0, 0, 0]]

def largeReads : List Bytes :=
  ([0x40, 0, 0xFF, 0xFC] ++ zeros 4092) :: (replicate 14 (zeros 4096) ++ [zeros 4095, [0, 0x40, 0, 0, 0]])

lemma largeReads_flatten : largeReads.flatten = largeFrames.flatten := by
  have hmiddle : (replicate 14 (zeros 4096)).flatten = zeros (14 * 4096) := flatten_replicate_replicate
  have hlast : ([0, 0x40, 0, 0, 0] : Bytes) = zeros 1 ++ [0x40, 0, 0, 0] := rfl
  have hzeros : zeros 4092 ++ (zeros (14 * 4096) ++ (zeros 4095 ++ zeros 1)) = zeros 65532 := by
    simp only [zeros, replicate_append_replicate]
  simp only [largeReads, largeFrames, flatten_cons, flatten_append, flatten_nil, hmiddle, hlast,
    append_nil, append_assoc, ← hzeros]

lemma length_largeFrame : ([0x40, 0, 0xFF, 0xFC] ++ zeros 65532).length = 65536 := by
  rw [length_append, length_zeros]
  rfl

lemma largeFrames_wellFormed : ∀ f ∈ largeFrames, WellFormedFrame f ∧ f.length ≤ tcpMaxFrame := by
  have hlarge := length_largeFrame
  intro f hf
  simp only [largeFrames, mem_cons, not_mem_nil, or_false] at hf
  obtain rfl | rfl := hf
  · refine ⟨.inr ⟨rfl, by rw [hlarge]; decide, ?_⟩, by rw [hlarge]; decide⟩
    rw [hlarge]
    rfl
  · exact ⟨.inr (by decide), by decide⟩

lemma largeReads_length : ∀ read ∈ largeReads, 1 ≤ read.length ∧ read.length ≤ 4096 := by
  intro read hread
  simp only [largeReads, mem_cons, mem_append, mem_replicate, not_mem_nil, or_false] at hread
  obtain rfl | ⟨-, rfl⟩ | rfl | rfl := hread
  · simp
  · simp
  · simp
  · simp

theorem segmentation_closes_connection :
    (∀ f ∈ largeFrames, WellFormedFrame f ∧ f.length ≤ tcpMaxFrame) ∧
    (∀ read ∈ largeReads, 1 ≤ read.length ∧ read.length ≤ 4096) ∧
    largeReads.flatten = largeFrames.flatten ∧ (serveReads [] largeReads).2 = none := by
  refine ⟨largeFrames_wellFormed, largeReads_length, largeReads_flatten, ?_⟩
  apply (serveReads_wellFormed (fun f hf => (largeFrames_wellFormed f hf).1)
    (fun f hf => (largeFrames_wellFormed f hf).2) largeReads_flatten).2
  intro hroom
  have hlast := hroom (([0x40, 0, 0xFF, 0xFC] ++ zeros 4092) :: (replicate 14 (zeros 4096) ++ [zeros 4095]))
    [0, 0x40, 0, 0, 0] [] (by simp only [largeReads, cons_append, append_assoc, nil_append])
  have hmiddle : (replicate 14 (zeros 4096)).flatten = zeros (14 * 4096) := flatten_replicate_replicate
  have hread : (([0x40, 0, 0xFF, 0xFC] ++ zeros 4092) :: (replicate 14 (zeros 4096) ++
      [zeros 4095])).flatten.length = 65535 := by
    rw [flatten_cons, flatten_append, hmiddle, flatten_singleton, length_append,
      length_append, length_append, length_zeros, length_zeros, length_zeros]
    rfl
  have hopen : unfinished largeFrames 65535 = 65535 := by
    rw [largeFrames, unfinished, length_largeFrame]
    exact if_neg (by omega)
  have hfive : ([0, 0x40, 0, 0, 0] : Bytes).length = 5 := rfl
  rw [hread, hopen, hfive, tcpMaxFrame] at hlast
  omega

end AurixVoice.Turn
