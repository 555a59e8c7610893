import AurixVoice.Library.Dict
import AurixVoice.Library.Traces
import AurixVoice.Types

/-!
The audio that `AudioAnalysisPipeline` collects for speech recognition. A sample keeps whether transcription was
on when it was received. What Opus decodes, whether the provider answers and the order of a hash map are inputs.
-/

namespace AurixVoice.Speech

open Dict Traces

structure SpeechConfig where
  transcription : Bool
  safetyVoice : Bool

abbrev Heard := Int16 × Bool

abbrev Speaker := UserId × ChannelId

structure UserAudioBuffer where
  pcm : List Heard
  lastPacket : ℤ

structure TranscriptSegment where
  speaker : Speaker
  pcm : List Heard
  deliver : Bool
  safety : Bool

structure PipelineOptions where
  segmentSamples : ℕ
  minSamples : ℕ
  silenceFlush : Option ℤ
  sttProvider : Bool
  contentAnalyzers : Bool
  safetyEnabled : Bool

structure Pipeline where
  buffers : Dict Speaker UserAudioBuffer
  config : ChannelId → SpeechConfig

inductive PipelineEvent
  | packet (key : Speaker) (decoded : List Int16) (now : ℤ) (answered : Bool)
  | configure (channel : ChannelId) (config : SpeechConfig)
  | flushIdle (keys : List Speaker) (hosted answered : ChannelId → Bool) (now : ℤ)
  | left (key : Speaker) (answered : Bool)

def Consented (pcm : List Heard) : Prop := ∀ x ∈ pcm, x.2 = true

namespace Pipeline

variable (o : PipelineOptions) (s : Pipeline) (key : Speaker)

def transcribes (channel : ChannelId) : Bool :=
  o.sttProvider && ((s.config channel).transcription || o.safetyEnabled && (s.config channel).safetyVoice)

def put (buf : UserAudioBuffer) : Pipeline := { s with buffers := s.buffers.set key buf }

def dispatchAnalysis (buf : UserAudioBuffer) (answered : Bool) : List TranscriptSegment :=
  if s.transcribes o key.2 && answered then
    [⟨key, buf.pcm, (s.config key.2).transcription, o.safetyEnabled && (s.config key.2).safetyVoice⟩]
  else []

def processOpusPacket (decoded : List Int16) (now : ℤ) (answered : Bool) : Pipeline × List TranscriptSegment :=
  if !(o.contentAnalyzers || s.transcribes o key.2) || decoded.isEmpty then (s, [])
  else
    let buf := (s.buffers.find key).getD ⟨[], now⟩
    let buf : UserAudioBuffer := ⟨buf.pcm ++ decoded.map (·, (s.config key.2).transcription), now⟩
    if o.segmentSamples ≤ buf.pcm.length then
      (s.put key { buf with pcm := [] }, s.dispatchAnalysis o key buf answered)
    else (s.put key buf, [])

def flushOne (hosted answered : ChannelId → Bool) (now silence : ℤ) : Pipeline × List TranscriptSegment :=
  match s.buffers.find key with
  | none => (s, [])
  | some buf =>
    if buf.pcm.isEmpty || now - buf.lastPacket < silence then (s, [])
    else (s.put key { buf with pcm := [] },
      if o.minSamples ≤ buf.pcm.length && hosted key.2 then s.dispatchAnalysis o key buf (answered key.2) else [])

def flushIdle (hosted answered : ChannelId → Bool) (now silence : ℤ) :
    List Speaker → Pipeline → Pipeline × List TranscriptSegment
  | [], s => (s, [])
  | key :: keys, s =>
    let (s, out) := s.flushOne o key hosted answered now silence
    let (s, more) := flushIdle hosted answered now silence keys s
    (s, out ++ more)

def participantLeft (answered : Bool) : Pipeline × List TranscriptSegment :=
  match s.buffers.find key with
  | none => (s, [])
  | some buf => ({ s with buffers := s.buffers.erase key },
    if o.minSamples ≤ buf.pcm.length then s.dispatchAnalysis o key buf answered else [])

def act : PipelineEvent → Pipeline × List TranscriptSegment
  | .packet key decoded now answered => s.processOpusPacket o key decoded now answered
  | .configure channel config => ({ s with config := Function.update s.config channel config }, [])
  | .flushIdle keys hosted answered now =>
    match o.silenceFlush with
    | none => (s, [])
    | some silence => flushIdle o hosted answered now silence keys s
  | .left key answered => s.participantLeft o key answered

def next (e : PipelineEvent) : Pipeline := (s.act o e).1

/-- The samples of the segments that a run delivers to participants. -/
def captions (es : List PipelineEvent) : List Heard :=
  ((outputs (next o) (fun s e => (s.act o e).2) s es).filter (·.deliver)).flatMap (·.pcm)

/-- Transcription is turned on in a channel only while nothing of it is buffered. -/
def StartsClean : PipelineEvent → Prop
  | .configure channel config => config.transcription = true → (s.config channel).transcription = false →
    ∀ user buf, s.buffers.find (user, channel) = some buf → buf.pcm = []
  | _ => True

def Clean : Prop := ∀ key buf, s.buffers.find key = some buf → (s.config key.2).transcription = true → Consented buf.pcm

def Kept (r : Pipeline × List TranscriptSegment) : Prop := r.1.Clean ∧ ∀ x ∈ r.2, x.deliver = true → Consented x.pcm

variable {o s key}

lemma consented_nil : Consented [] := fun _ hx => absurd hx List.not_mem_nil

lemma Clean.idle (h : s.Clean) : Kept (s, []) := ⟨h, fun _ hx => absurd hx List.not_mem_nil⟩

lemma Clean.dispatch {s' : Pipeline} (h : s'.Clean) {buf : UserAudioBuffer} {answered : Bool}
    (hbuf : (s.config key.2).transcription = true → Consented buf.pcm) (c : Prop) [Decidable c] :
    Kept (s', if c then s.dispatchAnalysis o key buf answered else []) := by
  refine ⟨h, fun x hx => ?_⟩
  unfold dispatchAnalysis at hx
  split_ifs at hx
  · rw [List.mem_singleton.mp hx]
    exact hbuf
  · cases hx
  · cases hx

section

variable (h : s.Clean)
include h

lemma Clean.put {buf : UserAudioBuffer} (hbuf : (s.config key.2).transcription = true → Consented buf.pcm) :
    (s.put key buf).Clean := by
  intro other b hb hon
  rw [Pipeline.put, find_set] at hb
  split at hb
  next heq =>
    subst heq
    exact Option.some.inj hb ▸ hbuf hon
  next => exact h other b hb hon

lemma Clean.processOpusPacket (decoded : List Int16) (now : ℤ) (answered : Bool) :
    Kept (s.processOpusPacket o key decoded now answered) := by
  have hbuf : (s.config key.2).transcription = true → Consented
      (((s.buffers.find key).getD ⟨[], now⟩).pcm ++ decoded.map (·, (s.config key.2).transcription)) := by
    intro hon x hx
    rcases List.mem_append.mp hx with hx | hx
    · cases hfind : s.buffers.find key with
      | none => simp [hfind] at hx
      | some buf => exact h key buf hfind hon x (by simpa [hfind] using hx)
    · obtain ⟨y, -, rfl⟩ := List.mem_map.mp hx
      exact hon
  unfold Pipeline.processOpusPacket
  split
  · exact h.idle
  · dsimp only
    split
    · exact (h.put fun _ => consented_nil).dispatch hbuf True
    · exact (h.put hbuf).idle

lemma Clean.flushOne (hosted answered : ChannelId → Bool) (now silence : ℤ) :
    Kept (s.flushOne o key hosted answered now silence) := by
  unfold Pipeline.flushOne
  split
  · exact h.idle
  next buf hbuf =>
    split
    · exact h.idle
    · exact (h.put fun _ => consented_nil).dispatch (h key buf hbuf) _

lemma Clean.flushIdle (hosted answered : ChannelId → Bool) (now silence : ℤ) (keys : List Speaker) :
    Kept (flushIdle o hosted answered now silence keys s) := by
  induction keys generalizing s with
  | nil => exact h.idle
  | cons key keys ih =>
    obtain ⟨hclean, hout⟩ : Kept (s.flushOne o key hosted answered now silence) :=
      h.flushOne hosted answered now silence
    obtain ⟨hclean, hmore⟩ := ih hclean
    exact ⟨hclean, List.forall_mem_append.mpr ⟨hout, hmore⟩⟩

lemma Clean.participantLeft (answered : Bool) : Kept (s.participantLeft o key answered) := by
  have herase : Clean { s with buffers := s.buffers.erase key } :=
    fun other buf hbuf => h other buf (of_find_erase hbuf).2
  unfold Pipeline.participantLeft
  split
  · exact h.idle
  next buf hbuf => exact herase.dispatch (h key buf hbuf) _

lemma Clean.act {e : PipelineEvent} (he : s.StartsClean e) : Kept (s.act o e) := by
  cases e with
  | packet key decoded now answered => exact h.processOpusPacket decoded now answered
  | configure channel config =>
    refine Clean.idle fun key buf hbuf hon => ?_
    by_cases hkey : key.2 = channel
    · subst hkey
      cases hold : (s.config key.2).transcription with
      | true => exact h key buf hbuf hold
      | false => exact he (by simpa using hon) hold key.1 buf hbuf ▸ consented_nil
    · exact h key buf hbuf (by simpa [hkey] using hon)
  | flushIdle keys hosted answered now =>
    rw [Pipeline.act]
    split
    · exact h.idle
    · exact h.flushIdle hosted answered now _ keys
  | left key answered => exact h.participantLeft answered

end

theorem captions_consented (o : PipelineOptions) (config : ChannelId → SpeechConfig) (es : List PipelineEvent)
    (h : Meets (next o) StartsClean ⟨.empty, config⟩ es) : Consented (captions o ⟨.empty, config⟩ es) := by
  have hstart : Clean ⟨.empty, config⟩ := fun key buf hbuf => by cases hbuf
  have hrun : ∀ x ∈ outputs (next o) (fun s e => (s.act o e).2) ⟨.empty, config⟩ es,
      x.deliver = true → Consented x.pcm :=
    (forall_outputs_iff _).mpr (meets_of_invariant Clean (fun _ _ hs he => (hs.act he).1)
      (fun _ _ hs he => (hs.act he).2) h hstart)
  intro y hy
  obtain ⟨x, hx, hy⟩ := List.mem_flatMap.mp hy
  obtain ⟨hx, hdeliver⟩ := List.mem_filter.mp hx
  exact hrun x hx hdeliver y hy

def seconds : PipelineOptions := ⟨4, 1, none, true, false, true⟩

theorem captions_consented_configured :
    let es := [.configure 7 ⟨true, false⟩, .packet (1, 7) [5] 0 true, .left (1, 7) true]
    captions seconds ⟨.empty, fun _ => ⟨false, true⟩⟩ es = [(5, true)] ∧
      Consented (captions seconds ⟨.empty, fun _ => ⟨false, true⟩⟩ es) :=
  ⟨rfl, captions_consented _ _ _ ⟨fun _ _ _ _ h => (by cases h), trivial, trivial, trivial⟩⟩

theorem unconsented_speech_captioned :
    captions seconds ⟨.empty, fun _ => ⟨false, true⟩⟩
      [.packet (1, 7) [5] 0 true, .configure 7 ⟨true, false⟩, .left (1, 7) true] = [(5, false)] := rfl

end Pipeline

end AurixVoice.Speech
