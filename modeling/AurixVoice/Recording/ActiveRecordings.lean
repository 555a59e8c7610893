import AurixVoice.Library.Dict
import AurixVoice.Library.Traces
import AurixVoice.Types

/-!
The active recordings of a node. `start_recording` looks for one of the same speaker, waits for the directory
and the database, and then enters its own; an id in use is not drawn again.
-/

namespace AurixVoice.Recording

open Dict

structure Speaker where
  appId : AppId
  channelId : ChannelId
  userId : UserId
  deriving DecidableEq

def Speaker.place (r : Speaker) : ChannelId × UserId := (r.channelId, r.userId)

structure ActiveState where
  byId : Dict Uuid Speaker
  byChannelUser : Dict (ChannelId × UserId) Uuid
  channels : Finset ChannelId

namespace ActiveState

def insert (st : ActiveState) (id : Uuid) (rec : Speaker) : ActiveState :=
  ⟨st.byId.set id rec, st.byChannelUser.set rec.place id, Insert.insert rec.channelId st.channels⟩

def remove (st : ActiveState) (id : Uuid) : ActiveState :=
  match st.byId.find id with
  | none => st
  | some rec =>
    let byId := st.byId.erase id
    ⟨byId, st.byChannelUser.erase rec.place,
      if ∃ other ∈ byId.keys, (byId.find other).any fun r => r.channelId = rec.channelId then st.channels
      else st.channels.erase rec.channelId⟩

end ActiveState

/-- `starting` are the calls of `start_recording` that have passed their check. -/
structure RecordingService where
  active : ActiveState
  starting : Dict Uuid Speaker

inductive RecordingCall
  | start (id : Uuid) (rec : Speaker)
  | created (id : Uuid) (ok : Bool)
  | stop (appId : AppId) (id : Uuid)

namespace RecordingService

def new : RecordingService := ⟨⟨.empty, .empty, ∅⟩, .empty⟩

def step (s : RecordingService) : RecordingCall → RecordingService
  | .start id rec =>
    if (s.active.byChannelUser.find rec.place).isSome ∨ id ∈ s.active.byId.keys ∪ s.starting.keys then s
    else { s with starting := s.starting.set id rec }
  | .created id ok =>
    match s.starting.find id with
    | none => s
    | some rec => ⟨if ok then s.active.insert id rec else s.active, s.starting.erase id⟩
  | .stop appId id =>
    match s.active.byId.find id with
    | none => s
    | some rec => if rec.appId = appId then { s with active := s.active.remove id } else s

structure OnePerSpeaker (s : RecordingService) : Prop where
  unique : ∀ id id' r r', s.active.byId.find id = some r → s.active.byId.find id' = some r' → r.place = r'.place →
    id = id'
  index : ∀ place id, s.active.byChannelUser.find place = some id ↔
    ∃ r, s.active.byId.find id = some r ∧ r.place = place

/-- No recording of a speaker is started while another start for them is waiting. -/
def Uncrossed (s : RecordingService) : RecordingCall → Prop
  | .start _ rec => ∀ id r, s.starting.find id = some r → r.place ≠ rec.place
  | _ => True

structure Sound (s : RecordingService) : Prop where
  index : ∀ place id, s.active.byChannelUser.find place = some id ↔
    ∃ r, s.active.byId.find id = some r ∧ r.place = place
  waiting : ∀ id r, s.starting.find id = some r →
    s.active.byId.find id = none ∧ s.active.byChannelUser.find r.place = none
  apart : ∀ id id' r r', s.starting.find id = some r → s.starting.find id' = some r' → r.place = r'.place → id = id'

variable {s : RecordingService}

lemma Sound.insert (h : s.Sound) {id : Uuid} {rec : Speaker}
    (hid : s.starting.find id = some rec) : Sound ⟨s.active.insert id rec, s.starting.erase id⟩ := by
  obtain ⟨hnew, hfree⟩ := h.waiting id rec hid
  refine ⟨fun place other => ?_, fun other r hr => ?_, fun other other' r r' hr hr' => ?_⟩
  · have hplace := h.index place other
    simp only [ActiveState.insert, find_set]
    grind [h.index rec.place other]
  · have hother := h.waiting other r
    have hsame := h.apart id other rec r hid
    simp only [ActiveState.insert, find_set, find_erase] at hr ⊢
    grind
  · simp only [find_erase] at hr hr'
    exact h.apart other other' r r' (by grind) (by grind)

lemma Sound.remove (h : s.Sound) (id : Uuid) : Sound { s with active := s.active.remove id } := by
  unfold ActiveState.remove
  cases hid : s.active.byId.find id with
  | none => exact h
  | some rec =>
    have hown := (h.index rec.place id).mpr ⟨rec, hid, rfl⟩
    refine ⟨fun place other => ?_, fun other r hr => ?_, h.apart⟩
    · have hplace := h.index place other
      simp only [find_erase]
      grind
    · have hother := h.waiting other r hr
      simp only [find_erase]
      grind

lemma Sound.step (h : s.Sound) (e : RecordingCall) (hcross : s.Uncrossed e) : (s.step e).Sound := by
  cases e with
  | start id rec =>
    rw [RecordingService.step]
    split
    · exact h
    next hfree =>
    push Not at hfree
    simp only [Finset.mem_union, mem_keys, not_or, Bool.not_eq_true, Option.isSome_eq_false_iff,
      Option.isNone_iff_eq_none] at hfree
    refine ⟨h.index, fun other r hr => ?_, fun other other' r r' hr hr' heq => ?_⟩
    · have hother := h.waiting other r
      grind [find_set]
    · have hold := h.apart other other' r r'
      have hwait := hcross other r
      have hwait' := hcross other' r'
      grind [find_set]
  | created id ok =>
    rw [RecordingService.step]
    cases hid : s.starting.find id with
    | none => exact h
    | some rec =>
      cases ok with
      | true => exact h.insert hid
      | false =>
        refine ⟨h.index, fun other r hr => h.waiting other r ?_, fun other other' r r' hr hr' =>
          h.apart other other' r r' ?_ ?_⟩ <;> grind [find_erase]
  | stop appId id =>
    rw [RecordingService.step]
    split
    · exact h
    · split
      · exact h.remove id
      · exact h

theorem one_recording_per_speaker (es : List RecordingCall) (h : Traces.Meets step Uncrossed new es) :
    (es.foldl step new).OnePerSpeaker := by
  have hsound : (es.foldl step new).Sound :=
    Traces.meets_invariant Sound (fun s e hs he => hs.step e he) h
      ⟨by simp [new, Dict.empty], by simp [new, Dict.empty], by simp [new, Dict.empty]⟩
  refine ⟨fun id id' r r' hr hr' heq => ?_, hsound.index⟩
  have hfirst := (hsound.index r.place id).mpr ⟨r, hr, rfl⟩
  have hsecond := (hsound.index r.place id').mpr ⟨r', hr', heq.symm⟩
  exact Option.some.inj (hfirst.symm.trans hsecond)

def restarted : List RecordingCall :=
  [.start 1 ⟨7, 1, 2⟩, .created 1 true, .stop 7 1, .start 2 ⟨7, 1, 2⟩, .created 2 true]

theorem one_recording_per_speaker_restarted :
    Traces.Meets step Uncrossed new restarted ∧ (restarted.foldl step new).OnePerSpeaker := by
  have h : Traces.Meets step Uncrossed new restarted := by
    refine ⟨?_, trivial, trivial, ?_, trivial, trivial⟩
    · simp [Uncrossed, new, Dict.empty]
    · intro id r hr
      by_cases hid : id = 1 <;> simp [step, new, Dict.empty, ActiveState.insert, ActiveState.remove, hid] at hr
  exact ⟨h, one_recording_per_speaker restarted h⟩

theorem crossed_starts_record_twice : ¬ OnePerSpeaker
    ([.start 1 ⟨7, 1, 2⟩, .start 2 ⟨7, 1, 2⟩, .created 1 true, .created 2 true].foldl step new) := fun h =>
  absurd (h.unique 1 2 ⟨7, 1, 2⟩ ⟨7, 1, 2⟩ (by decide) (by decide) rfl) (by decide)

end RecordingService

end AurixVoice.Recording
