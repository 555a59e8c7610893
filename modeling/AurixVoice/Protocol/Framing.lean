import AurixVoice.Library.Cutter
import AurixVoice.Protocol.Header

/-! Length-prefixed frames of the TLS media tunnel: the decoder does not depend on how the stream was pushed. -/

namespace AurixVoice.Protocol

open List

def framePrefix : ℕ := 2
def maxFramePayload : ℕ := maxPacketSize
def maxFrame : ℕ := framePrefix + maxFramePayload

inductive FrameError
  | empty
  | oversized (len : ℕ)
  deriving DecidableEq

def encodeFrame (packet : Bytes) : Option Bytes :=
  if packet.isEmpty ∨ maxFramePayload < packet.length then none
  else some (putU16 (UInt16.ofNat packet.length) ++ packet)

structure FrameDecoder where
  buf : Bytes
  read : ℕ
  deriving DecidableEq

namespace FrameDecoder

def new : FrameDecoder := ⟨[], 0⟩

def push (d : FrameDecoder) (data : Bytes) : FrameDecoder :=
  if 0 < d.read ∧ (maxFrame ≤ d.read ∨ d.read = d.buf.length) then ⟨d.buf.drop d.read ++ data, 0⟩
  else ⟨d.buf ++ data, d.read⟩

def nextFrame (d : FrameDecoder) : Except FrameError (Option Bytes) × FrameDecoder :=
  let rest := d.buf.drop d.read
  if rest.length < framePrefix then (.ok none, d)
  else
    let len := (getU16 rest).1.toNat
    if len = 0 then (.error .empty, d)
    else if maxFramePayload < len then (.error (.oversized len), d)
    else if rest.length < framePrefix + len then (.ok none, d)
    else (.ok (some ((rest.drop framePrefix).take len)), { d with read := d.read + (framePrefix + len) })

inductive Call
  | push (data : Bytes)
  | nextFrame

def call (d : FrameDecoder) : Call → FrameDecoder
  | .push data => d.push data
  | .nextFrame => d.nextFrame.2

def answers (d : FrameDecoder) : List Call → List (Except FrameError (Option Bytes))
  | [] => []
  | .push data :: calls => (d.push data).answers calls
  | .nextFrame :: calls => d.nextFrame.1 :: d.nextFrame.2.answers calls

def pushed : List Call → Bytes
  | [] => []
  | .push data :: calls => data ++ pushed calls
  | .nextFrame :: calls => pushed calls

def yielded (out : List (Except FrameError (Option Bytes))) : List Bytes :=
  out.filterMap fun | .ok packet => packet | .error _ => none

end FrameDecoder

def cutFrame (stream : Bytes) : Cut FrameError :=
  if stream.length < framePrefix then .more
  else
    let len := (getU16 stream).1.toNat
    if len = 0 then .refuse .empty
    else if maxFramePayload < len then .refuse (.oversized len)
    else if stream.length < framePrefix + len then .more
    else .frame (framePrefix + len)

variable {stream : Bytes}

lemma getU16_append (h : 2 ≤ stream.length) (more : Bytes) : (getU16 (stream ++ more)).1 = (getU16 stream).1 := by
  rw [getU16, getU16, take_append_of_le_length h]

lemma cutFrame_eq_frame {n : ℕ} (h : cutFrame stream = .frame n) :
    n = framePrefix + (getU16 stream).1.toNat ∧ (getU16 stream).1.toNat ≠ 0 ∧
      (getU16 stream).1.toNat ≤ maxFramePayload ∧ n ≤ stream.length := by
  unfold cutFrame at h
  grind

lemma cutFrame_append (more : Bytes) (h : cutFrame stream ≠ .more) : cutFrame (stream ++ more) = cutFrame stream := by
  have hlen : 2 ≤ stream.length := by
    by_contra hs
    exact h (if_pos (not_le.mp hs))
  have hget := getU16_append hlen more
  unfold cutFrame at h ⊢
  grind

def frameCutter : Cutter UInt8 FrameError where
  cut := cutFrame
  pos h := by have := cutFrame_eq_frame h; simp only [framePrefix] at this; omega
  le_length h := (cutFrame_eq_frame h).2.2.2
  stable := cutFrame_append

def packets (p : Parse UInt8 FrameError) : List Bytes := p.frames.map fun frame => frame.drop framePrefix

def packetAt (p : Parse UInt8 FrameError) (k : ℕ) : Except FrameError (Option Bytes) :=
  match (packets p)[k]?, p.refused with
  | some packet, _ => .ok (some packet)
  | none, some e => .error e
  | none, none => .ok none

namespace FrameDecoder

def unread (d : FrameDecoder) : Bytes := d.buf.drop d.read

variable {d : FrameDecoder}

@[simp] lemma unread_push (h : d.read ≤ d.buf.length) (data : Bytes) :
    (d.push data).unread = d.unread ++ data ∧ (d.push data).read ≤ (d.push data).buf.length := by
  unfold push unread
  split
  · simp
  · exact ⟨drop_append_of_le_length h, by simp; omega⟩

lemma nextFrame_eq (d : FrameDecoder) :
    d.nextFrame = match cutFrame d.unread with
      | .more => (.ok none, d)
      | .refuse e => (.error e, d)
      | .frame n => (.ok (some ((d.unread.take n).drop framePrefix)), { d with read := d.read + n }) := by
  unfold nextFrame cutFrame unread
  by_cases hshort : (d.buf.drop d.read).length < framePrefix
  · rw [if_pos hshort, if_pos hshort]
  rw [if_neg hshort, if_neg hshort]
  by_cases hempty : (getU16 (d.buf.drop d.read)).1.toNat = 0
  · rw [if_pos hempty, if_pos hempty]
  rw [if_neg hempty, if_neg hempty]
  by_cases hlarge : maxFramePayload < (getU16 (d.buf.drop d.read)).1.toNat
  · rw [if_pos hlarge, if_pos hlarge]
  rw [if_neg hlarge, if_neg hlarge]
  by_cases hpart : (d.buf.drop d.read).length < framePrefix + (getU16 (d.buf.drop d.read)).1.toNat
  · rw [if_pos hpart, if_pos hpart]
  · rw [if_neg hpart, if_neg hpart]
    simp [drop_take]

structure Tracks (d : FrameDecoder) (stream : Bytes) (taken : List Bytes) : Prop where
  read_le : d.read ≤ d.buf.length
  parse_eq : frameCutter.parse stream = (frameCutter.parse d.unread).after taken

lemma tracks_new : new.Tracks [] [] := ⟨le_refl _, rfl⟩

variable {taken : List Bytes}

section

variable (h : d.Tracks stream taken)
include h

lemma Tracks.push (data : Bytes) : (d.push data).Tracks (stream ++ data) taken := by
  obtain ⟨hunread, hle⟩ := unread_push h.read_le data
  refine ⟨hle, ?_⟩
  rw [hunread]
  exact Cutter.parse_after_append h.parse_eq data

lemma Tracks.nextFrame : (∃ n, d.nextFrame.1 = .ok (some ((d.unread.take n).drop framePrefix)) ∧
      d.nextFrame.2.Tracks stream (taken ++ [d.unread.take n])) ∨
    (d.nextFrame = (.ok none, d) ∧ frameCutter.parse stream = ⟨taken, none, d.unread⟩) ∨
    ∃ e, d.nextFrame = (.error e, d) ∧ frameCutter.parse stream = ⟨taken, some e, d.unread⟩ := by
  rw [nextFrame_eq]
  cases hc : cutFrame d.unread with
  | more =>
    rw [h.parse_eq, Cutter.parse_of_more hc]
    simp [Parse.after]
  | refuse =>
    rw [h.parse_eq, Cutter.parse_of_refuse hc]
    simp [Parse.after]
  | frame n =>
    refine .inl ⟨n, rfl, ?_⟩
    have hn : n ≤ d.unread.length := (cutFrame_eq_frame hc).2.2.2
    have hle : d.read + n ≤ d.buf.length := by
      have hread := h.read_le
      rw [unread, length_drop] at hn
      omega
    have hunread : unread { d with read := d.read + n } = d.unread.drop n := by
      rw [unread, unread, drop_drop]
    refine ⟨hle, ?_⟩
    rw [hunread, h.parse_eq, Cutter.parse_of_frame hc, Parse.after_after]

lemma Tracks.answer : d.nextFrame.1 = packetAt (frameCutter.parse stream) taken.length := by
  obtain ⟨n, hanswer, hnext⟩ | ⟨hanswer, hparse⟩ | ⟨e, hanswer, hparse⟩ := h.nextFrame
  · rw [hanswer, hnext.parse_eq]
    simp [packetAt, packets]
  all_goals
    rw [hanswer, hparse]
    simp [packetAt, packets]

lemma Tracks.run (calls : List Call) :
    ∃ more, yielded (d.answers calls) = more.map (fun frame => frame.drop framePrefix) ∧
      (calls.foldl call d).Tracks (stream ++ pushed calls) (taken ++ more) := by
  induction calls generalizing d stream taken with
  | nil => exact ⟨[], rfl, by simpa [pushed] using h⟩
  | cons c calls ih =>
    cases c with
    | push data =>
      obtain ⟨more, hyield, htracks⟩ := ih (h.push data)
      exact ⟨more, hyield, by simpa [pushed, call] using htracks⟩
    | nextFrame =>
      obtain ⟨n, hanswer, hnext⟩ | ⟨hanswer, -⟩ | ⟨e, hanswer, -⟩ := h.nextFrame
      · obtain ⟨more, hyield, htracks⟩ := ih hnext
        refine ⟨d.unread.take n :: more, ?_, by simpa [pushed, call] using htracks⟩
        simpa [answers, yielded, hanswer] using hyield
      all_goals
        obtain ⟨more, hyield, htracks⟩ := ih h
        refine ⟨more, ?_, by simpa [pushed, call, hanswer] using htracks⟩
        simpa [answers, yielded, hanswer] using hyield

lemma Tracks.error_mem {calls : List Call} {e : FrameError} (he : .error e ∈ d.answers calls) :
    ∃ more, yielded (d.answers calls) = more.map (fun frame => frame.drop framePrefix) ∧
      (frameCutter.parse (stream ++ pushed calls)).frames = taken ++ more ∧
      (frameCutter.parse (stream ++ pushed calls)).refused = some e := by
  induction calls generalizing d stream taken with
  | nil => cases he
  | cons c calls ih =>
    cases c with
    | push data =>
      obtain ⟨more, hyield, hframes, hrefused⟩ := ih (h.push data) he
      rw [append_assoc] at hframes hrefused
      exact ⟨more, hyield, hframes, hrefused⟩
    | nextFrame =>
      obtain ⟨n, hanswer, hnext⟩ | ⟨hanswer, -⟩ | ⟨e', hanswer, hparse⟩ := h.nextFrame
      · have hmem : .error e ∈ d.nextFrame.2.answers calls := by
          simpa [answers, hanswer] using he
        obtain ⟨more, hyield, hframes, hrefused⟩ := ih hnext hmem
        refine ⟨d.unread.take n :: more, by simpa [answers, yielded, hanswer] using hyield, ?_, hrefused⟩
        simpa [pushed] using hframes
      · have hmem : .error e ∈ d.answers calls := by simpa [answers, hanswer] using he
        obtain ⟨more, hyield, hframes, hrefused⟩ := ih h hmem
        exact ⟨more, by simpa [answers, yielded, hanswer] using hyield, hframes, hrefused⟩
      · -- the stream is refused from here on, so nothing further is cut off it
        have hrefused : (frameCutter.parse stream).refused = some e' := by rw [hparse]
        have hwhole := Cutter.parse_append_of_refused (pushed calls) hrefused
        obtain ⟨more, hyield, htracks⟩ := h.run (.nextFrame :: calls)
        have hframes : (frameCutter.parse (stream ++ pushed calls)).frames = taken := by rw [hwhole, hparse]
        have hnone : more = [] := by
          have hsame := congrArg Parse.frames htracks.parse_eq
          rw [pushed, hframes, Parse.frames_after, append_assoc] at hsame
          exact (append_eq_nil_iff.mp (self_eq_append_right.mp hsame)).1
        subst hnone
        refine ⟨[], hyield, by rw [pushed, hframes, append_nil], ?_⟩
        rw [pushed, hwhole, hparse]
        obtain hhead | htail := mem_cons.mp he
        · rw [hanswer] at hhead
          exact congrArg some (Except.error.inj hhead).symm
        · have hmem : .error e ∈ d.answers calls := by simpa [hanswer] using htail
          obtain ⟨_, _, _, hagain⟩ := ih h hmem
          rw [hwhole, hparse] at hagain
          exact hagain

end

end FrameDecoder

def Legal (packet : Bytes) : Prop := 0 < packet.length ∧ packet.length ≤ maxFramePayload

lemma encodeFrame_eq_some {packet : Bytes} (h : Legal packet) :
    encodeFrame packet = some (putU16 (UInt16.ofNat packet.length) ++ packet) := by
  have hne : ¬ (packet.isEmpty ∨ maxFramePayload < packet.length) := by
    rw [isEmpty_iff_length_eq_zero]
    have := h.1
    have := h.2
    omega
  rw [encodeFrame, if_neg hne]

lemma isFrame_encode {packet : Bytes} (h : Legal packet) :
    frameCutter.IsFrame (putU16 (UInt16.ofNat packet.length) ++ packet) := by
  obtain ⟨hpos, hle⟩ := h
  have hmax : maxFramePayload = 1400 := rfl
  have hlen : (UInt16.ofNat packet.length).toNat = packet.length := by
    rw [UInt16.toNat_ofNat', Nat.mod_eq_of_lt (by omega)]
  have hsize : (putU16 (UInt16.ofNat packet.length) ++ packet).length = 2 + packet.length := by simp
  have hp : framePrefix = 2 := rfl
  simp only [Cutter.IsFrame, frameCutter, cutFrame, getU16_put, hlen, hsize, hp]
  rw [if_neg (by omega), if_neg (by omega), if_neg (by omega), if_neg (by omega)]

variable {legal : List Bytes}

lemma parse_encoded (h : ∀ packet ∈ legal, Legal packet) :
    frameCutter.parse (legal.filterMap encodeFrame).flatten =
      ⟨legal.map fun packet => putU16 (UInt16.ofNat packet.length) ++ packet, none, []⟩ := by
  have hframes : legal.filterMap encodeFrame =
      legal.map fun packet => putU16 (UInt16.ofNat packet.length) ++ packet := by
    rw [← filterMap_eq_map]
    apply filterMap_congr
    intro packet hmem
    exact encodeFrame_eq_some (h packet hmem)
  have hall : ∀ frame ∈ legal.map (fun packet => putU16 (UInt16.ofNat packet.length) ++ packet),
      frameCutter.IsFrame frame := by
    intro frame hmem
    obtain ⟨packet, hpacket, rfl⟩ := mem_map.mp hmem
    exact isFrame_encode (h packet hpacket)
  have hempty : frameCutter.parse [] = ⟨[], none, []⟩ := Cutter.parse_of_more rfl
  have hparse := Cutter.parse_flatten hall []
  rw [append_nil, hempty] at hparse
  rw [hframes, hparse]
  simp [Parse.after]

lemma packets_encoded (h : ∀ packet ∈ legal, Legal packet) :
    packets (frameCutter.parse (legal.filterMap encodeFrame).flatten) = legal := by
  rw [parse_encoded h, packets, map_map]
  conv_rhs => rw [← map_id legal]
  apply map_congr_left
  intro packet _
  exact drop_left' (length_putU16 _)

namespace FrameDecoder

lemma Tracks.pull {d : FrameDecoder} (h : d.Tracks stream taken)
    (n : ℕ) : yielded (d.answers (replicate n .nextFrame)) =
      ((packets (frameCutter.parse stream)).drop taken.length).take n := by
  induction n generalizing d taken with
  | zero => rfl
  | succ n ih =>
    rw [replicate_succ]
    obtain ⟨m, hanswer, hnext⟩ | ⟨hanswer, hparse⟩ | ⟨e, hanswer, hparse⟩ := h.nextFrame
    · have hrest := ih hnext
      simp only [answers, yielded, hanswer, filterMap_cons] at hrest ⊢
      have hone : (packets (frameCutter.parse stream)).drop taken.length =
          (d.unread.take m).drop framePrefix :: packets (frameCutter.parse d.nextFrame.2.unread) := by
        rw [hnext.parse_eq]
        simp [packets]
      have htwo : (packets (frameCutter.parse stream)).drop (taken.length + 1) =
          packets (frameCutter.parse d.nextFrame.2.unread) := by
        rw [← drop_drop, hone, drop_one, tail_cons]
      rw [hrest, hone, length_append, length_singleton, htwo, take_succ_cons]
    all_goals
      have hrest := ih h
      simp only [answers, yielded, hanswer, filterMap_cons] at hrest ⊢
      rw [hrest, hparse]
      simp [packets]

lemma answers_append (d : FrameDecoder) (calls calls' : List Call) :
    d.answers (calls ++ calls') = d.answers calls ++ (calls.foldl call d).answers calls' := by
  induction calls generalizing d with
  | nil => rfl
  | cons c calls ih => cases c <;> simp [answers, call, ih]

lemma yielded_append (out out' : List (Except FrameError (Option Bytes))) :
    yielded (out ++ out') = yielded out ++ yielded out' := filterMap_append

theorem chunking_insensitive :
    (∀ (calls : List Call) (later : Bytes),
      yielded (new.answers calls) <+: packets (frameCutter.parse (pushed calls ++ later)) ∧
      (∀ e, .error e ∈ new.answers calls →
        (frameCutter.parse (pushed calls ++ later)).refused = some e ∧
        yielded (new.answers calls) = packets (frameCutter.parse (pushed calls ++ later))) ∧
      (calls.foldl call new).nextFrame.1 =
        packetAt (frameCutter.parse (pushed calls)) (yielded (new.answers calls)).length) ∧
    ∀ legal : List Bytes, (∀ packet ∈ legal, Legal packet) →
      (∀ packet ∈ legal, (encodeFrame packet).isSome = true) ∧
      ∀ calls, pushed calls = (legal.filterMap encodeFrame).flatten →
        yielded (new.answers (calls ++ replicate legal.length .nextFrame)) = legal ∧
        ∀ e, .error e ∉ new.answers calls := by
  refine ⟨fun calls later => ?_, fun legal hlegal => ⟨?_, fun calls hpushed => ?_⟩⟩
  · obtain ⟨more, hyield, htracks⟩ := tracks_new.run calls
    rw [nil_append, nil_append] at htracks
    refine ⟨?_, fun e he => ?_, ?_⟩
    · have hprefix : more <+: (frameCutter.parse (pushed calls ++ later)).frames := by
        rw [Cutter.parse_after_append htracks.parse_eq later]
        exact prefix_append _ _
      rw [hyield]
      exact hprefix.map _
    · obtain ⟨all, hall, hframes, hrefused⟩ := tracks_new.error_mem he
      rw [nil_append] at hframes hrefused
      rw [Cutter.parse_append_of_refused later hrefused, hall, packets, hframes]
      exact ⟨hrefused, rfl⟩
    · rw [htracks.answer, hyield, length_map]
  · intro packet hmem
    rw [encodeFrame_eq_some (hlegal packet hmem)]
    rfl
  · obtain ⟨more, hyield, htracks⟩ := tracks_new.run calls
    rw [nil_append, nil_append, hpushed] at htracks
    refine ⟨?_, fun e he => ?_⟩
    · have hpackets := packets_encoded hlegal
      have hfirst : legal.take more.length = more.map fun frame => frame.drop framePrefix := by
        rw [← hpackets, htracks.parse_eq]
        simp [packets]
      have hlast : (legal.drop more.length).take legal.length = legal.drop more.length :=
        take_of_length_le (by simp)
      rw [answers_append, yielded_append, htracks.pull, hyield, hpackets, ← hfirst, hlast, take_append_drop]
    · obtain ⟨all, -, -, hrefused⟩ := tracks_new.error_mem he
      rw [nil_append, hpushed, parse_encoded hlegal] at hrefused
      cases hrefused

theorem chunking_insensitive_two_packets :
    yielded (new.answers ([.push [0, 1, 7, 0], .nextFrame, .nextFrame, .push [2, 8], .push [9]] ++
      replicate 2 .nextFrame)) = [[7], [8, 9]] :=
  ((chunking_insensitive.2 [[7], [8, 9]] (by simp [Legal, maxFramePayload, maxPacketSize])).2
    [.push [0, 1, 7, 0], .nextFrame, .nextFrame, .push [2, 8], .push [9]] rfl).1

end FrameDecoder

end AurixVoice.Protocol
