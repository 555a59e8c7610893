import AurixVoice.Library.Dict
import AurixVoice.Library.Traces
import AurixVoice.Protocol.RelayEnvelope
import AurixVoice.Protocol.ReplayWindow

/-! The streams a node synthesizes for a channel, their numbers, and the replay windows of a receiver. -/

namespace AurixVoice

open Protocol List

namespace Protocol

inductive AudioCodec
  | opus
  | pcmu
  | pcma
  deriving DecidableEq

def PacketHeader.setAudioCodec (h : PacketHeader) (codec : AudioCodec) : PacketHeader :=
  let h := (h.clearFlag .pcmu).clearFlag .pcma
  match codec with
  | .opus => h
  | .pcmu => h.setFlag .pcmu
  | .pcma => h.setFlag .pcma

lemma PacketHeader.nonceFields_setAudioCodec (h : PacketHeader) (codec : AudioCodec) :
    (h.setAudioCodec codec).nonceFields = h.nonceFields := by
  cases codec <;> rfl

def AurixPacket.audio (seq ts ssrc chHash : UInt32) (data : Bytes) : AurixPacket :=
  .new { PacketHeader.new .audio seq ts ssrc with channelIdHash := chHash } data

end Protocol

namespace Media

open Traces

variable (suite : Suite)

def synthSsrcFlag : UInt32 := 0x80000000
def mixSsrcSalt : UInt32 := 0x5A5A5A5A
def frameSamples : UInt32 := 960

def participantVoiceSsrc (sessionSsrc : UInt32) : UInt32 := sessionSsrc ||| synthSsrcFlag

def systemVoiceSsrc (channel : ChannelId) : UInt32 :=
  (channelIdHash suite channel &&& ~~~synthSsrcFlag) ||| synthSsrcFlag

def translationVoiceSsrc (channel : ChannelId) : UInt32 :=
  ((channelIdHash suite channel ^^^ 0x5A5A5A5A) &&& ~~~synthSsrcFlag) ||| synthSsrcFlag

def channelMixSsrc (channel : ChannelId) : UInt32 :=
  ((channelIdHash suite channel ^^^ mixSsrcSalt) &&& ~~~synthSsrcFlag) ||| synthSsrcFlag

lemma systemVoiceSsrc_ne (channel : ChannelId) :
    systemVoiceSsrc suite channel ≠ translationVoiceSsrc suite channel := by
  unfold systemVoiceSsrc translationVoiceSsrc
  intro heq
  -- bit 1 of the salt is set and lies below the flag
  have hbit := congrArg (fun x => x.toBitVec.getLsbD 1) heq
  simp [synthSsrcFlag] at hbit

structure StreamClock where
  sequence : UInt32
  timestamp : UInt32
  deriving DecidableEq

def StreamClock.next (clock : StreamClock) : StreamClock := ⟨clock.sequence + 1, clock.timestamp + frameSamples⟩

structure InjectedFrame where
  ssrc : UInt32
  sequence : UInt32
  timestamp : UInt32
  payload : Bytes

def InjectedFrame.intoPacket (frame : InjectedFrame) (channel : ChannelId) : AurixPacket :=
  .audio frame.sequence frame.timestamp frame.ssrc (channelIdHash suite channel) frame.payload

inductive TtsSource
  | participant (ssrc : UInt32)
  | system
  | listener (session : SessionId)
  deriving DecidableEq

def TtsSource.stream (channel : ChannelId) : TtsSource → UInt32 × Option SessionId
  | .participant ssrc => (participantVoiceSsrc ssrc, none)
  | .system => (systemVoiceSsrc suite channel, none)
  | .listener session => (translationVoiceSsrc suite channel, some session)

structure TtsEngine where
  streams : Dict (UInt32 × Option SessionId) StreamClock

namespace TtsEngine

def clock (engine : TtsEngine) (key : UInt32 × Option SessionId) : StreamClock :=
  (engine.streams.find key).getD ⟨0, 0⟩

def playFrame (engine : TtsEngine) (channel : ChannelId) (source : TtsSource) (payload : Bytes) :
    AurixPacket × TtsEngine :=
  let key := source.stream suite channel
  let clock := engine.clock key
  (InjectedFrame.intoPacket suite ⟨key.1, clock.sequence, clock.timestamp, payload⟩ channel,
    ⟨engine.streams.set key clock.next⟩)

end TtsEngine

structure MixHub where
  sequences : Dict (SessionId × ChannelId) UInt32

namespace MixHub

def sequence (hub : MixHub) (receiver : SessionId) (channel : ChannelId) : UInt32 :=
  (hub.sequences.find (receiver, channel)).getD 0

def emitTo (hub : MixHub) (receiver : SessionId) (channel : ChannelId) (codec : AudioCodec) (frame : Bytes) :
    AurixPacket × MixHub :=
  let seq := hub.sequence receiver channel
  let header := { PacketHeader.new .audio seq (seq * frameSamples) (channelMixSsrc suite channel) with
    channelIdHash := channelIdHash suite channel }
  (.new ((header.setFlag .mixed).setAudioCodec codec) frame,
    ⟨hub.sequences.set (receiver, channel) (seq + 1)⟩)

end MixHub

abbrev ReplayMap := Dict UInt32 ReplayWindow

def ReplayMap.window (replay : ReplayMap) (ssrc : UInt32) : ReplayWindow := (replay.find ssrc).getD default

def ReplayMap.check (replay : ReplayMap) (header : PacketHeader) : Bool × ReplayMap :=
  let (fresh, window) := (replay.window header.ssrc).checkAndUpdate header.sequence
  (fresh, replay.set header.ssrc window)

lemma ReplayMap.window_check (replay : ReplayMap) (header : PacketHeader) (ssrc : UInt32) :
    (replay.check header).2.window ssrc =
      if ssrc = header.ssrc then ((replay.window ssrc).checkAndUpdate header.sequence).2
      else replay.window ssrc := by
  simp only [check, window, Dict.find_set]
  split
  next h => rw [h, Option.getD_some]
  · rfl

inductive Synthetic
  | announcement
  | translation
  | mix
  deriving DecidableEq

def Synthetic.ssrc (channel : ChannelId) : Synthetic → UInt32
  | announcement => systemVoiceSsrc suite channel
  | translation => translationVoiceSsrc suite channel
  | mix => channelMixSsrc suite channel

/-- A frame of one of the streams, and whether the receiver gets it as a packet of its own: an
announcement or translation can also be mixed, or pass while the receiver is elsewhere. -/
structure Synthesized where
  stream : Synthetic
  frame : Bytes
  delivered : Bool
  deriving DecidableEq

structure Listening where
  receiver : SessionId
  channel : ChannelId
  codec : AudioCodec
  engine : TtsEngine
  hub : MixHub
  replay : ReplayMap

namespace Listening

def init (receiver : SessionId) (channel : ChannelId) (codec : AudioCodec) : Listening :=
  ⟨receiver, channel, codec, ⟨.empty⟩, ⟨.empty⟩, .empty⟩

def emit (s : Listening) (e : Synthesized) : AurixPacket × Listening :=
  match e.stream with
  | .announcement =>
    let (packet, engine) := s.engine.playFrame suite s.channel .system e.frame
    (packet, { s with engine := engine })
  | .translation =>
    let (packet, engine) := s.engine.playFrame suite s.channel (.listener s.receiver) e.frame
    (packet, { s with engine := engine })
  | .mix =>
    let (packet, hub) := s.hub.emitTo suite s.receiver s.channel s.codec e.frame
    (packet, { s with hub := hub })

def step (s : Listening) (e : Synthesized) : Listening :=
  let (packet, s) := s.emit suite e
  if e.delivered then { s with replay := (s.replay.check packet.header).2 } else s

def Accepts (s : Listening) (e : Synthesized) : Prop :=
  e.delivered = true → (s.replay.check (s.emit suite e).1.header).1 = true

def number (s : Listening) : Synthetic → UInt32
  | .announcement => (s.engine.clock (TtsSource.system.stream suite s.channel)).sequence
  | .translation => (s.engine.clock ((TtsSource.listener s.receiver).stream suite s.channel)).sequence
  | .mix => s.hub.sequence s.receiver s.channel

variable {played : Synthetic → ℕ} {active : Synthetic → Prop} (s : Listening) (e : Synthesized)

lemma emit_header :
    (s.emit suite e).1.header.ssrc = e.stream.ssrc suite s.channel ∧
      (s.emit suite e).1.header.sequence = s.number suite e.stream := by
  obtain ⟨stream, frame, delivered⟩ := e
  cases stream with
  | announcement | translation => exact ⟨rfl, rfl⟩
  | mix => cases hcodec : s.codec <;> simp [emit, MixHub.emitTo, PacketHeader.setAudioCodec, hcodec,
      PacketHeader.setFlag, PacketHeader.clearFlag, PacketHeader.new, AurixPacket.new, Synthetic.ssrc, number]

lemma emit_channel :
    (s.emit suite e).2.channel = s.channel ∧ (s.emit suite e).2.receiver = s.receiver ∧
      (s.emit suite e).2.replay = s.replay := by
  obtain ⟨stream, frame, delivered⟩ := e
  cases stream <;> exact ⟨rfl, rfl, rfl⟩

lemma emit_number (stream : Synthetic) :
    (s.emit suite e).2.number suite stream =
      if stream = e.stream then s.number suite stream + 1 else s.number suite stream := by
  obtain ⟨emitted, frame, delivered⟩ := e
  cases emitted <;> cases stream <;>
    simp [emit, number, TtsEngine.playFrame, TtsEngine.clock, TtsSource.stream, StreamClock.next,
      MixHub.emitTo, MixHub.sequence]

lemma step_channel : (s.step suite e).channel = s.channel := by
  unfold step
  dsimp only
  split <;> exact (emit_channel suite s e).1

lemma step_number (stream : Synthetic) :
    (s.step suite e).number suite stream =
      if stream = e.stream then s.number suite stream + 1 else s.number suite stream := by
  rw [← emit_number suite s e stream]
  unfold step
  dsimp only
  split
  · cases stream <;> rfl
  · rfl

lemma step_window (ssrc : UInt32) :
    (s.step suite e).replay.window ssrc =
      if e.delivered = true ∧ ssrc = e.stream.ssrc suite s.channel then
        ((s.replay.window ssrc).checkAndUpdate (s.number suite e.stream)).2
      else s.replay.window ssrc := by
  obtain ⟨hssrc, hseq⟩ := emit_header suite s e
  obtain ⟨-, -, hreplay⟩ := emit_channel suite s e
  unfold step
  cases hdelivered : e.delivered with
  | false => simp [hreplay]
  | true => simp [hreplay, ReplayMap.window_check, hssrc, hseq]

lemma accepts_iff :
    s.Accepts suite e ↔ (e.delivered = true →
      ((s.replay.window (e.stream.ssrc suite s.channel)).checkAndUpdate (s.number suite e.stream)).1 = true) := by
  obtain ⟨hssrc, hseq⟩ := emit_header suite s e
  rw [Accepts, ReplayMap.check, hssrc, hseq]

section

variable (receiver : SessionId) (channel : ChannelId) (codec : AudioCodec)

lemma window_init (ssrc : UInt32) : ReplayWindow.sliding.Tracks ((init receiver channel codec).replay.window ssrc) [] :=
  SlidingWindow.tracks_nil rfl

lemma number_init (stream : Synthetic) : (init receiver channel codec).number suite stream = 0 := by
  cases stream <;> rfl

end

def advance (played : Synthetic → ℕ) (stream : Synthetic) : Synthetic → ℕ :=
  fun other => played other + if other = stream then 1 else 0

variable {suite}

lemma number_step {s : Listening} (h : ∀ stream, s.number suite stream = UInt32.ofNat (played stream)) (e : Synthesized)
    (stream : Synthetic) : (s.step suite e).number suite stream = UInt32.ofNat (advance played e.stream stream) := by
  rw [step_number, h stream, advance]
  split
  · rw [UInt32.ofNat_add]
    rfl
  · rfl

variable (suite) in
structure Counted (active : Synthetic → Prop) (s : Listening) (played : Synthetic → ℕ) : Prop where
  number : ∀ stream, s.number suite stream = UInt32.ofNat (played stream)
  seen : ∀ ssrc, ∃ seen, ReplayWindow.sliding.Tracks (s.replay.window ssrc) seen ∧
    ∀ m ∈ seen, ∃ stream, active stream ∧ stream.ssrc suite s.channel = ssrc ∧ m < played stream

variable (suite) in
def Apart (channel : ChannelId) (active : Synthetic → Prop) : Prop :=
  ∀ x y, active x → active y → x.ssrc suite channel = y.ssrc suite channel → x = y

variable (suite) in
lemma counted_init (active : Synthetic → Prop) (receiver : SessionId) (channel : ChannelId)
    (codec : AudioCodec) : Counted suite active (init receiver channel codec) (fun _ => 0) where
  number stream := number_init suite receiver channel codec stream
  seen ssrc := ⟨[], window_init receiver channel codec ssrc, fun _ hm => absurd hm not_mem_nil⟩

variable {stream : Synthetic}

lemma Counted.fresh {s : Listening} (h : Counted suite active s played)
    (hapart : Apart suite s.channel active) (hactive : active stream) {seen : List ℕ}
    (hseen : ∀ m ∈ seen, ∃ x, active x ∧ x.ssrc suite s.channel = stream.ssrc suite s.channel ∧ m < played x)
    (hlt : played stream < 2 ^ 32) :
    SlidingWindow.Fresh ReplayWindow.sliding.width seen (s.number suite stream).toNat := by
  have hnumber : (s.number suite stream).toNat = played stream := by
    rw [h.number stream, UInt32.toNat_ofNat', Nat.mod_eq_of_lt hlt]
  intro m hm
  obtain ⟨x, hx, hsame, hm⟩ := hseen m hm
  obtain rfl := hapart x stream hx hactive hsame
  omega

lemma Counted.step {s : Listening} (h : Counted suite active s played) (hapart : Apart suite s.channel active)
    {e : Synthesized} (hactive : e.delivered = true → active e.stream) (hlt : played e.stream < 2 ^ 32) :
    s.Accepts suite e ∧ Counted suite active (s.step suite e) (advance played e.stream) := by
  have hle : ∀ x, played x ≤ advance played e.stream x := fun x => Nat.le_add_right _ _
  refine ⟨?_, number_step h.number e, ?_⟩
  · rw [accepts_iff]
    intro hdelivered
    obtain ⟨seen, htracks, hseen⟩ := h.seen (e.stream.ssrc suite s.channel)
    exact (htracks.accept (h.fresh hapart (hactive hdelivered) hseen hlt)).1
  · intro ssrc
    obtain ⟨seen, htracks, hseen⟩ := h.seen ssrc
    have hold : ∀ m ∈ seen, ∃ x, active x ∧ x.ssrc suite s.channel = ssrc ∧ m < advance played e.stream x := by
      intro m hm
      obtain ⟨x, hx, hsame, hm⟩ := hseen m hm
      exact ⟨x, hx, hsame, hm.trans_le (hle x)⟩
    rw [step_channel, step_window]
    split
    next hhere =>
      obtain ⟨hdelivered, rfl⟩ := hhere
      have hfresh := h.fresh hapart (hactive hdelivered) hseen hlt
      refine ⟨_, (htracks.accept hfresh).2, ?_⟩
      intro m hm
      rcases mem_cons.mp hm with rfl | hm
      · refine ⟨e.stream, hactive hdelivered, rfl, ?_⟩
        rw [h.number, UInt32.toNat_ofNat', Nat.mod_eq_of_lt hlt, advance, if_pos rfl]
        exact Nat.lt_succ_self _
      · exact hold m hm
    · exact ⟨seen, htracks, hold⟩

def count (run : List Synthesized) (stream : Synthetic) : ℕ := run.countP (·.stream = stream)

lemma advance_count (played : Synthetic → ℕ) (e : Synthesized) (run : List Synthesized) (stream : Synthetic) :
    advance played e.stream stream + count run stream = played stream + count (e :: run) stream := by
  unfold advance count
  rw [countP_cons]
  by_cases h : stream = e.stream
  · subst h
    simp only [if_true, decide_true]
    omega
  · simp [h, Ne.symm h]

lemma Counted.accepts {s : Listening} (h : Counted suite active s played) (hapart : Apart suite s.channel active)
    {run : List Synthesized} (hactive : ∀ e ∈ run, e.delivered = true → active e.stream)
    (hcount : ∀ stream, played stream + count run stream ≤ 2 ^ 32) :
    Meets (Listening.step suite) (Accepts suite) s run := by
  induction run generalizing s played with
  | nil => trivial
  | cons e run ih =>
    have hlt : played e.stream < 2 ^ 32 := by
      have hle := hcount e.stream
      rw [← advance_count, advance, if_pos rfl] at hle
      omega
    obtain ⟨haccepts, hnext⟩ := h.step hapart (hactive e mem_cons_self) hlt
    refine ⟨haccepts, ih hnext ?_ (fun d hd => hactive d (mem_cons_of_mem _ hd)) ?_⟩
    · rwa [step_channel]
    · intro stream
      rw [advance_count]
      exact hcount stream

def Sharing (stream : Synthetic) : Prop := stream = .translation ∨ stream = .mix

variable (suite) in
lemma ssrc_of_sharing (channel : ChannelId) (h : Sharing stream) :
    stream.ssrc suite channel = translationVoiceSsrc suite channel := by
  rcases h with rfl | rfl
  · rfl
  · rfl

variable (suite) in
structure OneVoice (s : Listening) (played : Synthetic → ℕ) : Prop where
  number : ∀ stream, s.number suite stream = UInt32.ofNat (played stream)
  seen : ∃ seen, ReplayWindow.sliding.Tracks (s.replay.window (translationVoiceSsrc suite s.channel)) seen ∧
    ∀ stream, Sharing stream → 0 < played stream → 0 ∈ seen
  one : played .translation = 0 ∨ played .mix = 0

variable (suite) in
lemma oneVoice_init (receiver : SessionId) (channel : ChannelId) (codec : AudioCodec) :
    OneVoice suite (init receiver channel codec) (fun _ => 0) where
  number stream := number_init suite receiver channel codec stream
  seen := ⟨[], window_init receiver channel codec _, fun _ _ h => absurd h (Nat.lt_irrefl 0)⟩
  one := .inl rfl

lemma OneVoice.step_announcement {s : Listening} (h : OneVoice suite s played) {e : Synthesized}
    (hstream : e.stream = .announcement) :
    OneVoice suite (s.step suite e) (advance played e.stream) where
  number := number_step h.number e
  seen := by
    obtain ⟨seen, htracks, hzero⟩ := h.seen
    refine ⟨seen, ?_, ?_⟩
    · rw [step_channel, step_window, if_neg]
      · exact htracks
      · rintro ⟨-, hsame⟩
        rw [hstream] at hsame
        exact systemVoiceSsrc_ne suite s.channel hsame.symm
    · intro stream hsharing hpos
      apply hzero stream hsharing
      rcases hsharing with rfl | rfl <;> simpa [advance, hstream] using hpos
  one := by simpa [advance, hstream] using h.one

lemma OneVoice.step_sharing {s : Listening} (h : OneVoice suite s played) {e : Synthesized}
    (hsharing : Sharing e.stream) (hdelivered : e.delivered = true) (haccepts : s.Accepts suite e) :
    OneVoice suite (s.step suite e) (advance played e.stream) := by
  obtain ⟨seen, htracks, hzero⟩ := h.seen
  have hssrc := ssrc_of_sharing suite s.channel hsharing
  have hfresh : SlidingWindow.Fresh ReplayWindow.sliding.width seen (s.number suite e.stream).toNat := by
    have haccept := (accepts_iff suite s e).mp haccepts hdelivered
    rw [hssrc] at haccept
    exact (htracks.accept_iff _).mp haccept
  have hfirst : played e.stream = 0 → 0 ∉ seen := by
    intro hplayed
    have := hfresh.not_mem
    rwa [h.number, hplayed] at this
  have hother : ∀ x, Sharing x → x ≠ e.stream → played x = 0 := by
    intro x hx hne
    by_cases hnew : played e.stream = 0
    · by_contra hpos
      exact hfirst hnew (hzero x hx (pos_of_ne_zero hpos))
    · rcases hsharing with heq | heq
      · rw [heq] at hnew hne
        exact (hx.resolve_left hne) ▸ h.one.resolve_left hnew
      · rw [heq] at hnew hne
        exact (hx.resolve_right hne) ▸ h.one.resolve_right hnew
  refine ⟨number_step h.number e, ⟨(s.number suite e.stream).toNat :: seen, ?_, ?_⟩, ?_⟩
  · rw [step_channel, step_window, if_pos ⟨hdelivered, hssrc.symm⟩]
    exact (htracks.accept hfresh).2
  · intro stream hstream hpos
    by_cases hnew : played e.stream = 0
    · rw [h.number, hnew]
      exact mem_cons_self
    · exact mem_cons_of_mem _ (hzero e.stream hsharing (pos_of_ne_zero hnew))
  · rcases hsharing with heq | heq
    · simpa [advance, heq] using hother .mix (.inr rfl) (by simp [heq])
    · simpa [advance, heq] using hother .translation (.inl rfl) (by simp [heq])

lemma OneVoice.run {s : Listening} (h : OneVoice suite s played) {run : List Synthesized}
    (hall : ∀ e ∈ run, e.delivered = true) (haccepts : Meets (Listening.step suite) (Accepts suite) s run) :
    played .translation + count run .translation = 0 ∨ played .mix + count run .mix = 0 := by
  induction run generalizing s played with
  | nil => exact h.one
  | cons e run ih =>
    have hnext : OneVoice suite (s.step suite e) (advance played e.stream) := by
      cases hstream : e.stream with
      | announcement => exact hstream ▸ h.step_announcement hstream
      | translation =>
        exact hstream ▸ h.step_sharing (.inl hstream) (hall e mem_cons_self) haccepts.1
      | mix => exact hstream ▸ h.step_sharing (.inr hstream) (hall e mem_cons_self) haccepts.1
    have hrest := ih hnext (fun d hd => hall d (mem_cons_of_mem _ hd)) haccepts.2
    rwa [advance_count, advance_count] at hrest

def Hears (run : List Synthesized) (stream : Synthetic) : Prop :=
  ∃ e ∈ run, e.stream = stream ∧ e.delivered = true

instance (run : List Synthesized) (stream : Synthetic) : Decidable (Hears run stream) :=
  inferInstanceAs (Decidable (∃ e ∈ run, e.stream = stream ∧ e.delivered = true))

variable (suite) in
lemma apart_of_not_both {run : List Synthesized} (channel : ChannelId)
    (h : ¬ (Hears run .translation ∧ Hears run .mix)) : Apart suite channel (Hears run) := by
  have hne := systemVoiceSsrc_ne suite channel
  intro x y hx hy hsame
  cases x with
  | announcement =>
    cases y with
    | announcement => rfl
    | translation | mix => exact absurd hsame hne
  | translation =>
    cases y with
    | announcement => exact absurd hsame.symm hne
    | translation => rfl
    | mix => exact absurd ⟨hx, hy⟩ h
  | mix =>
    cases y with
    | announcement => exact absurd hsame.symm hne
    | translation => exact absurd ⟨hy, hx⟩ h
    | mix => rfl

lemma count_pos_of_hears {run : List Synthesized} (h : Hears run stream) : 0 < count run stream := by
  obtain ⟨e, he, hstream, -⟩ := h
  exact countP_pos_iff.mpr ⟨e, he, decide_eq_true hstream⟩

theorem synthetic_streams_accepted (suite : Suite) (receiver : SessionId) (channel : ChannelId)
    (codec : AudioCodec) (run : List Synthesized) (hcount : ∀ stream, count run stream ≤ 2 ^ 32) :
    (systemVoiceSsrc suite channel ≠ translationVoiceSsrc suite channel ∧
      systemVoiceSsrc suite channel ≠ channelMixSsrc suite channel ∧
      translationVoiceSsrc suite channel = channelMixSsrc suite channel) ∧
    (¬ (Hears run .translation ∧ Hears run .mix) →
      Meets (step suite) (Accepts suite) (init receiver channel codec) run) ∧
    ((∀ e ∈ run, e.delivered = true) → Hears run .translation ∧ Hears run .mix →
      ¬ Meets (step suite) (Accepts suite) (init receiver channel codec) run) := by
  refine ⟨⟨systemVoiceSsrc_ne suite channel, systemVoiceSsrc_ne suite channel, rfl⟩, ?_, ?_⟩
  · intro hnot
    refine (counted_init suite (Hears run) receiver channel codec).accepts
      (apart_of_not_both suite channel hnot) (fun e he hdelivered => ⟨e, he, rfl, hdelivered⟩) ?_
    intro stream
    rw [zero_add]
    exact hcount stream
  · rintro hall ⟨htranslation, hmix⟩ haccepts
    have hzero := (oneVoice_init suite receiver channel codec).run hall haccepts
    have hpos := count_pos_of_hears htranslation
    have hpos' := count_pos_of_hears hmix
    omega

def announcedAndTranslated : List Synthesized :=
  [⟨.announcement, [1], true⟩, ⟨.translation, [2], true⟩, ⟨.announcement, [3], false⟩,
    ⟨.announcement, [4], true⟩, ⟨.translation, [5], true⟩]

theorem synthetic_streams_accepted_sample :
    Meets (step .masks) (Accepts .masks) (init 1 7 .opus) announcedAndTranslated := by
  refine (synthetic_streams_accepted .masks 1 7 .opus announcedAndTranslated ?_).2.1 (by decide)
  intro stream
  cases stream <;> decide

theorem mix_after_translation_refused :
    ¬ Meets (step .masks) (Accepts .masks) (init 1 7 .opus)
      [⟨.translation, [1], true⟩, ⟨.mix, [2], true⟩] := by
  rintro ⟨-, haccepts, -⟩
  exact absurd (haccepts rfl) (by decide)

end Listening

end Media

end AurixVoice
