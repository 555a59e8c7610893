import AurixVoice.Library.Traces
import AurixVoice.Recording.LiveStreams

/-! What a stream holds was delivered while its speaker consented; a withdrawal drops what its mixer holds. -/

namespace AurixVoice.Recording

open Option List

variable {S : Type} {opus : OpusDecoder S}

def MixTalker.Holds (t : MixTalker S) (k : ℕ) : Prop := k ∈ t.sources ∨ ∃ chunk ∈ t.queue, k ∈ chunk.sources

def Mixer.Holds (m : Mixer S) (user : UserId) (k : ℕ) : Prop :=
  ∃ t, m.talkers.find user = some t ∧ t.Holds k

variable {st : MixTalker S × ℕ} {k : ℕ} {t : MixTalker S} {m : Mixer S} {user other : UserId}

lemma MixTalker.holds_push {pcm : Pcm} (h : (push st pcm).1.Holds k) : st.1.Holds k := by
  obtain h | ⟨chunk, hchunk, hk⟩ := h
  · exact .inl h
  · obtain hold | hnew := mem_append.mp hchunk
    · right
      refine ⟨chunk, ?_, hk⟩
      split at hold
      · exact mem_of_mem_tail hold
      · exact hold
    · rw [mem_singleton.mp hnew] at hk
      exact .inl hk

lemma MixTalker.holds_foldl_push (frames : List Pcm) (h : (frames.foldl push st).1.Holds k) : st.1.Holds k := by
  induction frames generalizing st with
  | nil => exact h
  | cons pcm frames ih => exact holds_push (ih h)

lemma MixTalker.holds_turn {tick : ℕ} (h : (t.turn opus tick).2.Holds k) : t.Holds k := by
  unfold turn at h
  split at h
  next chunk queue hqueue =>
    obtain h | ⟨other, hother, hk⟩ := h
    · exact .inl h
    · exact .inr ⟨other, hqueue ▸ mem_cons_of_mem chunk hother, hk⟩
  · split at h
    · split at h
      · exact h
      · exact h
    · exact h

variable {chunk : Chunk}

lemma MixTalker.holds_of_turn {tick : ℕ} (h : (t.turn opus tick).1 = some chunk)
    (hk : k ∈ chunk.sources) : t.Holds k := by
  unfold turn at h
  split at h
  next first queue hqueue =>
    obtain rfl := some.inj h
    exact .inr ⟨first, hqueue ▸ mem_cons_self, hk⟩
  · split at h
    · split at h
      · obtain rfl := some.inj h
        exact .inl hk
      · cases h
    · cases h

lemma Mixer.holds_talkerOf (ht : m.talkerOf opus user = some t) (h : t.Holds k) : m.Holds user k := by
  unfold talkerOf at ht
  split at ht
  next talker hfind =>
    obtain rfl := some.inj ht
    exact ⟨talker, hfind, h⟩
  · obtain ⟨decoder, -, rfl⟩ := map_eq_some_iff.mp ht
    obtain h | ⟨chunk, hchunk, -⟩ := h
    · cases h
    · cases hchunk

lemma Mixer.holds_set {n : ℕ} (h : Mixer.Holds { m with talkers := m.talkers.set user t, overruns := n } other k) :
    (other = user ∧ t.Holds k) ∨ m.Holds other k := by
  obtain ⟨t', ht', hk⟩ := h
  rcases Dict.of_find_set ht' with ⟨heq, rfl⟩ | ⟨-, ht'⟩
  · exact .inl ⟨heq, hk⟩
  · exact .inr ⟨t', ht', hk⟩

lemma Mixer.holds_feed {payload : Bytes} {delivered : ℕ} (h : (m.feed opus user payload delivered).2.Holds other k)
    : m.Holds other k ∨ (other = user ∧ k = delivered) := by
  unfold feed at h
  split at h
  · exact .inl h
  next t ht =>
    split at h
    · obtain ⟨rfl, hk⟩ | h := holds_set h
      · exact .inl (holds_talkerOf ht hk)
      · exact .inl h
    · obtain ⟨rfl, hk⟩ | h := holds_set h
      · obtain hk | hk := MixTalker.holds_foldl_push _ hk
        · obtain rfl | hk := mem_cons.mp hk
          · exact .inr ⟨rfl, rfl⟩
          · exact .inl (holds_talkerOf ht (.inl hk))
        · exact .inl (holds_talkerOf ht (.inr hk))
      · exact .inl h

lemma Mixer.holds_remove (h : (m.remove user).Holds other k) : other ≠ user ∧ m.Holds other k := by
  obtain ⟨t, ht, hk⟩ := h
  simp only [remove, Dict.find_erase] at ht
  split at ht
  · cases ht
  next hne => exact ⟨hne, t, ht, hk⟩

lemma Mixer.holds_tickFrame (m : Mixer S) (encoded : Bool) :
    (∀ user k, (m.tickFrame opus encoded).2.Holds user k → m.Holds user k) ∧
      ∀ frame, (m.tickFrame opus encoded).1 = some frame → ∀ part ∈ frame.parts, ∀ k ∈ part.2.sources,
        m.Holds part.1 k := by
  have hkept : ∀ user t, m.kept.find user = some t → m.talkers.find user = some t := by
    intro user t ht
    rw [kept, Dict.find_filterValues, filter_eq_some_iff] at ht
    exact ht.1
  have hnext : ∀ user k (m' : Mixer S), m'.talkers = (m.advance opus).talkers → m'.Holds user k → m.Holds user k := by
    rintro user k m' hm' ⟨t, ht, hk⟩
    rw [hm'] at ht
    obtain ⟨t', ht', rfl⟩ := map_eq_some_iff.mp ht
    exact ⟨t', hkept user t' ht', MixTalker.holds_turn hk⟩
  unfold tickFrame
  dsimp only
  split
  · exact ⟨fun user k => hnext user k _ rfl, fun frame h => by cases h⟩
  · split
    · exact ⟨fun user k => hnext user k _ rfl, fun frame h => by cases h⟩
    · refine ⟨fun user k => hnext user k _ rfl, ?_⟩
      intro frame hframe part hpart k hk
      obtain rfl := some.inj hframe
      obtain ⟨⟨user, t⟩, ht, hpart⟩ := mem_filterMap.mp hpart
      obtain ⟨chunk, hchunk, rfl⟩ := map_eq_some_iff.mp hpart
      exact ⟨t, hkept user t (Dict.mem_entries.mp ht), MixTalker.holds_of_turn hchunk hk⟩

variable {queue : List Chunk}

lemma Mixer.tickFrame_of_queued (opus : OpusDecoder S)
    (ht : m.talkers.find user = some t) (hidle : m.tick + 1 - t.fedTick ≤ mixTalkerIdleTicks)
    (hqueue : t.queue = chunk :: queue) :
    ∃ frame, (m.tickFrame opus true).1 = some frame ∧ (user, chunk) ∈ frame.parts := by
  have hkept : m.kept.find user = some t := by
    rw [kept, Dict.find_filterValues, ht, filter_some, if_pos (decide_eq_true hidle)]
  have hpart : (user, chunk) ∈ m.parts opus := by
    refine mem_filterMap.mpr ⟨(user, t), Dict.mem_entries.mpr hkept, ?_⟩
    simp [MixTalker.turn, hqueue]
  have hactive : (m.advance opus).isActive = true := by
    have hne : (m.parts opus).isEmpty = false := isEmpty_eq_false_iff.mpr (ne_nil_of_mem hpart)
    simp only [isActive, advance, hne, Bool.false_eq_true, ↓reduceIte, any_some, Nat.sub_self, Nat.zero_le,
      decide_true]
  unfold tickFrame
  simp only [hactive]
  exact ⟨_, rfl, hpart⟩

namespace LiveStreams

variable {s : LiveStreams S}

def Queued (s : LiveStreams S) (id : StreamId) (user : UserId) (k : ℕ) : Prop :=
  ∃ job ∈ s.jobs, job.stream = id ∧ job.user = user ∧ job.delivered = k

def Mixes (s : LiveStreams S) (id : StreamId) (user : UserId) (k : ℕ) : Prop :=
  ∃ tap m, s.byId.find id = some tap ∧ tap.mixer = some m ∧ m.Holds user k

def Held (s : LiveStreams S) (id : StreamId) (user : UserId) (k : ℕ) : Prop := s.Queued id user k ∨ s.Mixes id user k

def consentOf (s : LiveStreams S) (id : StreamId) (user : UserId) : Option RecordingConsent :=
  (s.byId.find id).map fun tap => (tap.consent.find user).getD s.defaultConsent

variable {tap : Tap S} {k : ℕ} {s' : LiveStreams S}

lemma mixes_putTap {id id' : StreamId} (h : (s.putTap id tap).Mixes id' user k) :
    (id' = id ∧ ∃ m, tap.mixer = some m ∧ m.Holds user k) ∨ (id' ≠ id ∧ s.Mixes id' user k) := by
  obtain ⟨tap', m, htap', hm, hk⟩ := h
  simp only [putTap, Dict.find_set] at htap'
  split at htap'
  next heq =>
    obtain rfl := some.inj htap'
    exact .inl ⟨heq, m, hm, hk⟩
  next hne => exact .inr ⟨hne, tap', m, htap', hm, hk⟩

lemma consentOf_putTap (id id' : StreamId) (tap : Tap S) (user : UserId) :
    (s.putTap id tap).consentOf id' user =
      if id' = id then some ((tap.consent.find user).getD s.defaultConsent) else s.consentOf id' user := by
  unfold consentOf
  simp only [putTap, Dict.find_set]
  split <;> rfl

structure Keeps (s s' : LiveStreams S) (new : StreamId → UserId → ℕ → Prop) : Prop where
  now : s'.now = s.now
  required : s'.requireConsent = s.requireConsent
  consent : ∀ id user, s'.consentOf id user = s.consentOf id user
  held : ∀ id user k, s'.Held id user k → s.Held id user k ∨ new id user k

lemma Keeps.refl (s : LiveStreams S) (new : StreamId → UserId → ℕ → Prop) : Keeps s s new :=
  ⟨rfl, rfl, fun _ _ => rfl, fun _ _ _ => .inl⟩

variable {new : StreamId → UserId → ℕ → Prop}

lemma Keeps.trans {s'' : LiveStreams S} (h : Keeps s s' new) (h' : Keeps s' s'' new) : Keeps s s'' new where
  now := h'.now.trans h.now
  required := h'.required.trans h.required
  consent id user := (h'.consent id user).trans (h.consent id user)
  held id user k hk := by
    obtain hk | hk := h'.held id user k hk
    · exact h.held id user k hk
    · exact .inr hk

lemma keeps_putTap {id : StreamId} {tap' : Tap S} {jobs : List Job} (htap : s.byId.find id = some tap)
    (hconsent : ∀ user, (tap'.consent.find user).getD s.defaultConsent = (tap.consent.find user).getD s.defaultConsent)
    (hmixer : ∀ m' user k, tap'.mixer = some m' → m'.Holds user k → s.Held id user k ∨ new id user k)
    (hjobs : ∀ job ∈ jobs, job ∈ s.jobs ∨ new job.stream job.user job.delivered) :
    Keeps s { s.putTap id tap' with jobs := jobs } new where
  now := rfl
  required := rfl
  consent id' user := by
    refine (consentOf_putTap id id' tap' user).trans ?_
    split
    next heq =>
      rw [heq, consentOf, htap, hconsent]
      rfl
    · rfl
  held id' user k := by
    rintro (⟨job, hjob, rfl, rfl, rfl⟩ | hmix)
    · obtain hjob | hnew := hjobs job hjob
      · exact .inl (.inl ⟨job, hjob, rfl, rfl, rfl⟩)
      · exact .inr hnew
    · obtain ⟨heq, m, hm, hk⟩ | ⟨-, hmix⟩ := mixes_putTap (s := s) hmix
      · rw [heq]
        exact hmixer m user k hm hk
      · exact .inl (.inr hmix)

lemma deliverTo_spec (opus : OpusDecoder S) (s : LiveStreams S) (packet : Packet) (id : StreamId) (tap : Tap S) :
    ∃ tap' jobs, s.deliverTo opus packet id tap = { s.putTap id tap' with jobs := jobs } ∧
      tap'.mixer = tap.mixer ∧ tap'.consent = tap.consent ∧
      ∀ job ∈ jobs, job ∈ s.jobs ∨ job = ⟨id, packet.user, packet.payload, s.now⟩ := by
  unfold deliverTo
  split
  · exact ⟨tap, s.jobs, rfl, rfl, rfl, fun _ => .inl⟩
  next first talker htalker =>
    have hmixer : (tap.audioStarted first packet.user packet.ssrc).mixer = tap.mixer := by cases first <;> rfl
    have hconsent : (tap.audioStarted first packet.user packet.ssrc).consent = tap.consent := by cases first <;> rfl
    dsimp only
    split
    · refine ⟨_, _, rfl, hmixer, hconsent, ?_⟩
      intro job hjob
      obtain hjob | hjob := mem_append.mp hjob
      · exact .inl hjob
      · exact .inr (mem_singleton.mp hjob)
    · split
      · exact ⟨_, s.jobs, rfl, hmixer, hconsent, fun _ => .inl⟩
      · split <;> exact ⟨_, s.jobs, rfl, hmixer, hconsent, fun _ => .inl⟩

def Consented (s : LiveStreams S) (id : StreamId) (user : UserId) (k : ℕ) : Prop :=
  k = s.now ∧ s.consentOf id user = some .accepted

lemma keeps_onAudioTap (opus : OpusDecoder S) (s : LiveStreams S) (packet : Packet) (id : StreamId) :
    Keeps s (onAudioTap opus packet s id) s.Consented := by
  unfold onAudioTap
  cases htap : s.byId.find id with
  | none => exact .refl s _
  | some tap =>
    dsimp only
    split
    · exact .refl s _
    · have hconsent : ∀ user, ((tap.consent.set packet.user
          ((tap.consent.find packet.user).getD s.defaultConsent)).find user).getD s.defaultConsent =
          (tap.consent.find user).getD s.defaultConsent := by
        intro user
        rw [Dict.find_set]
        split
        next heq => rw [heq, getD_some]
        · rfl
      have hmixer : ∀ m' user k, tap.mixer = some m' → m'.Holds user k → s.Held id user k ∨ s.Consented id user k :=
        fun m' user k hm hk => .inl (.inr ⟨tap, m', htap, hm, hk⟩)
      split
      · exact keeps_putTap htap hconsent hmixer fun _ => .inl
      next haccepted =>
        obtain ⟨tap', jobs, heq, hmixer', hconsent', hjobs⟩ := deliverTo_spec opus s packet id
          { tap with consent := tap.consent.set packet.user ((tap.consent.find packet.user).getD s.defaultConsent) }
        rw [heq]
        apply keeps_putTap htap
        · intro user
          rw [hconsent']
          exact hconsent user
        · intro m' user k hm
          rw [hmixer'] at hm
          exact hmixer m' user k hm
        · intro job hjob
          obtain hjob | rfl := hjobs job hjob
          · exact .inl hjob
          · right
            refine ⟨rfl, ?_⟩
            rw [consentOf, htap]
            exact congrArg some (not_not.mp haccepted)

section

variable (s : LiveStreams S) (channel : ChannelId) (user : UserId) (id : StreamId)

lemma keeps_onAudio (packet : Packet) : Keeps s (s.onAudio opus channel packet) s.Consented := by
  unfold onAudio
  split
  · exact .refl s _
  · generalize (s.byChannel.find channel).getD [] = ids
    suffices h : ∀ s', Keeps s s' s.Consented → Keeps s (ids.foldl (onAudioTap opus packet) s') s.Consented from
      h s (.refl s _)
    induction ids with
    | nil => exact fun s' h => h
    | cons id ids ih =>
      intro s' h
      apply ih
      have hnext := keeps_onAudioTap opus s' packet id
      apply h.trans
      refine ⟨hnext.now, hnext.required, hnext.consent, ?_⟩
      intro id' user k hk
      obtain hk | ⟨hnow, hconsent⟩ := hnext.held id' user k hk
      · exact .inl hk
      · exact .inr ⟨hnow.trans h.now, (h.consent id' user).symm.trans hconsent⟩

lemma keeps_feedJob (n : ℕ) : Keeps s (s.feedJob opus n) s.Consented := by
  unfold feedJob
  cases hjob : s.jobs[n]? with
  | none => exact .refl s _
  | some job =>
    have hmem : job ∈ s.jobs := mem_of_getElem? hjob
    have hrest : ∀ other ∈ s.jobs.eraseIdx n, other ∈ s.jobs := fun other => mem_of_mem_eraseIdx
    dsimp only
    cases htap : s.byId.find job.stream with
    | none =>
      refine ⟨rfl, rfl, fun _ _ => rfl, ?_⟩
      rintro id user k (⟨other, hother, h⟩ | hmix)
      · exact .inl (.inl ⟨other, hrest other hother, h⟩)
      · exact .inl (.inr hmix)
    | some tap =>
      apply keeps_putTap htap
      · exact fun user => rfl
      · intro m' user k hfed hk
        obtain ⟨m, hm, rfl⟩ := map_eq_some_iff.mp hfed
        left
        obtain hk | ⟨rfl, rfl⟩ := Mixer.holds_feed hk
        · exact .inr ⟨tap, m, htap, hm, hk⟩
        · exact .inl ⟨job, hmem, rfl, rfl, rfl⟩
      · exact fun other hother => .inl (hrest other hother)

lemma keeps_leaveTap : Keeps s (leaveTap user s id) new := by
  unfold leaveTap
  cases htap : s.byId.find id with
  | none => exact .refl s _
  | some tap =>
    have hmixer : ∀ m' other k, tap.mixer.map (Mixer.remove · user) = some m' → m'.Holds other k →
        s.Held id other k ∨ new id other k := by
      intro m' other k hleft hk
      obtain ⟨m, hm, rfl⟩ := map_eq_some_iff.mp hleft
      exact .inl (.inr ⟨tap, m, htap, hm, (Mixer.holds_remove hk).2⟩)
    dsimp only
    split <;> exact keeps_putTap htap (fun _ => rfl) hmixer fun _ => .inl

lemma keeps_onParticipantLeft : Keeps s (s.onParticipantLeft channel user) new := by
  unfold onParticipantLeft
  generalize (s.byChannel.find channel).getD [] = ids
  induction ids generalizing s with
  | nil => exact .refl s new
  | cons id ids ih => exact (keeps_leaveTap s user id).trans (ih (leaveTap user s id))

lemma keeps_mixTick (encoded : Bool) : Keeps s (s.mixTick opus id encoded).2 new := by
  unfold mixTick
  cases htap : s.byId.find id with
  | none => exact .refl s new
  | some tap =>
    cases hm : tap.mixer with
    | none =>
      simp only [hm]
      exact .refl s new
    | some m =>
      simp only [hm]
      have hmixer : ∀ m' user k, some (m.tickFrame opus encoded).2 = some m' → m'.Holds user k →
          s.Held id user k ∨ new id user k := by
        intro m' user k hm' hk
        obtain rfl := some.inj hm'
        exact .inl (.inr ⟨tap, m, htap, hm, (m.holds_tickFrame encoded).1 user k hk⟩)
      apply keeps_putTap htap
      · intro user
        cases (m.tickFrame opus encoded).1 <;> rfl
      · intro m' user k hticked
        apply hmixer
        rw [← hticked]
        cases (m.tickFrame opus encoded).1 <;> rfl
      · exact fun _ => .inl

end

lemma mixes_of_mixTick {id : StreamId} {encoded : Bool} {frame : MixFrame} {part : UserId × Chunk}
    (h : (s.mixTick opus id encoded).1 = some frame) (hpart : part ∈ frame.parts) (hk : k ∈ part.2.sources) :
    s.Mixes id part.1 k := by
  unfold mixTick at h
  cases htap : s.byId.find id with
  | none =>
    rw [htap] at h
    cases h
  | some tap =>
    rw [htap] at h
    cases hm : tap.mixer with
    | none =>
      simp only [hm] at h
      cases h
    | some m =>
      simp only [hm] at h
      exact ⟨tap, m, htap, hm, (m.holds_tickFrame encoded).2 frame h part hpart k hk⟩

lemma mixTick_of_queued (opus : OpusDecoder S) (s : LiveStreams S) (id : StreamId) (user : UserId)
    (htap : s.byId.find id = some tap) (hm : tap.mixer = some m) (ht : m.talkers.find user = some t)
    (hidle : m.tick + 1 - t.fedTick ≤ mixTalkerIdleTicks) (hqueue : t.queue = chunk :: queue) :
    ∃ frame, (s.mixTick opus id true).1 = some frame ∧ (user, chunk) ∈ frame.parts := by
  obtain ⟨frame, hframe, hpart⟩ := Mixer.tickFrame_of_queued opus ht hidle hqueue
  refine ⟨frame, ?_, hpart⟩
  simp [mixTick, htap, hm, hframe]

/-- The decision of the user on the stream that a step takes: a call of `set_consent` that returned `Ok(true)`. -/
def decision (s : LiveStreams S) (id : StreamId) (user : UserId) : Event → Option RecordingConsent
  | .consent app id' user' consent =>
    if id' = id ∧ user' = user ∧ (s.setConsent app id' user' consent).1.toOption = some true then some consent else none
  | _ => none

lemma decision_consent (s : LiveStreams S) (id id' : StreamId) (user user' : UserId) (app : AppId)
    (c : RecordingConsent) : s.decision id user (.consent app id' user' c) =
      if id' = id ∧ user' = user ∧ (s.setConsent app id' user' c).1.toOption = some true then some c else none := rfl

lemma setConsent_cases (s : LiveStreams S) (app : AppId) (id : StreamId) (user : UserId) (c : RecordingConsent) :
    ((s.setConsent app id user c).1.toOption ≠ some true ∧ (s.setConsent app id user c).2 = s) ∨
      ∃ tap msg, s.byId.find id = some tap ∧
        s.setConsent app id user c = (.ok true, s.putTap id ((tap.decideConsent user c).enqueue msg)) := by
  unfold setConsent
  split
  · exact .inl ⟨by simp [Except.toOption], rfl⟩
  next tap htap =>
    split
    · exact .inl ⟨by simp [Except.toOption], rfl⟩
    · split
      · exact .inl ⟨by simp [Except.toOption], rfl⟩
      · exact .inr ⟨tap, _, htap, rfl⟩

lemma consent_decideConsent (tap : Tap S) (user : UserId) (c : RecordingConsent) :
    (tap.decideConsent user c).consent = tap.consent.set user c := by
  unfold Tap.decideConsent
  split <;> rfl

variable {c : RecordingConsent}

lemma holds_decideConsent {m' : Mixer S} (hm : (tap.decideConsent user c).mixer = some m') (hk : m'.Holds other k) :
    (∃ m, tap.mixer = some m ∧ m.Holds other k) ∧ ¬ (c = .declined ∧ other = user) := by
  unfold Tap.decideConsent at hm
  split at hm
  · obtain ⟨m, hsome, rfl⟩ := map_eq_some_iff.mp hm
    obtain ⟨hne, hk⟩ := Mixer.holds_remove hk
    exact ⟨⟨m, hsome, hk⟩, fun h => hne h.2⟩
  next hc => exact ⟨⟨m', hm, hk⟩, fun h => hc h.1⟩

structure StepSpec (s s' : LiveStreams S) (id : StreamId) (user : UserId) (taken : Option RecordingConsent) :
    Prop where
  now : s'.now = s.now + 1
  required : s'.requireConsent = s.requireConsent
  held : ∀ k, s'.Held id user k → s.Held id user k ∨ s.Consented id user k
  refused : taken = some .declined → ∀ k, s'.Held id user k → s.Queued id user k
  consent : s'.consentOf id user = if taken.isSome then taken else s.consentOf id user

lemma Keeps.stepSpec (h : Keeps s s' s.Consented) (id : StreamId) (user : UserId) :
    StepSpec s { s' with now := s.now + 1 } id user none where
  now := rfl
  required := h.required
  held k := h.held id user k
  refused h := by cases h
  consent := h.consent id user

lemma stepSpec_setConsent (s : LiveStreams S) (app : AppId) (id' : StreamId) (user' : UserId) (c : RecordingConsent)
    (id : StreamId) (user : UserId) : StepSpec s { (s.setConsent app id' user' c).2 with now := s.now + 1 } id user
      (s.decision id user (.consent app id' user' c)) := by
  rw [decision_consent]
  obtain ⟨hfail, hsame⟩ | ⟨tap, msg, htap, hset⟩ := s.setConsent_cases app id' user' c
  · rw [if_neg fun h => hfail h.2.2, hsame]
    exact (Keeps.refl s _).stepSpec id user
  · rw [hset]
    have hheld : ∀ k, (s.putTap id' ((tap.decideConsent user' c).enqueue msg)).Held id user k →
        s.Queued id user k ∨ (s.Mixes id user k ∧ ¬ (c = .declined ∧ id' = id ∧ user' = user)) := by
      rintro k (hqueued | hmix)
      · exact .inl hqueued
      · obtain ⟨rfl, m', hm', hk⟩ | ⟨hne, hmix⟩ := mixes_putTap hmix
        · obtain ⟨⟨m, hm, hk⟩, hnot⟩ := holds_decideConsent hm' hk
          exact .inr ⟨⟨tap, m, htap, hm, hk⟩, fun h => hnot ⟨h.1, h.2.2.symm⟩⟩
        · exact .inr ⟨hmix, fun h => hne h.2.1.symm⟩
    refine ⟨rfl, rfl, ?_, ?_, ?_⟩
    · intro k hk
      obtain hk | ⟨hk, -⟩ := hheld k hk
      · exact .inl (.inl hk)
      · exact .inl (.inr hk)
    · intro hrefused k hk
      split at hrefused
      next htaken =>
        obtain hk | ⟨-, hnot⟩ := hheld k hk
        · exact hk
        · exact absurd ⟨some.inj hrefused, htaken.1, htaken.2.1⟩ hnot
      · cases hrefused
    · refine (consentOf_putTap id' id _ user).trans ?_
      have hconsent : ((tap.decideConsent user' c).enqueue msg).consent = tap.consent.set user' c :=
        consent_decideConsent tap user' c
      rw [hconsent, Dict.find_set]
      by_cases hid : id = id'
      · by_cases huser : user = user'
        · simp [hid, huser, Except.toOption]
        · simp [hid, huser, Ne.symm huser, consentOf, htap]
      · simp [hid, Ne.symm hid]

lemma stepSpec (opus : OpusDecoder S) (s : LiveStreams S) (e : Event) (id : StreamId) (user : UserId) :
    StepSpec s (step opus s e) id user (s.decision id user e) := by
  cases e with
  | consent app id' user' c => exact s.stepSpec_setConsent app id' user' c id user
  | deliver channel packet => exact (s.keeps_onAudio channel packet).stepSpec id user
  | feed n => exact (s.keeps_feedJob n).stepSpec id user
  | tick id' encoded => exact (s.keeps_mixTick id' encoded).stepSpec id user
  | left channel other => exact (s.keeps_onParticipantLeft channel other).stepSpec id user

end LiveStreams

def decisions (opus : OpusDecoder S) (s : LiveStreams S) (events : List Event) (id : StreamId) (user : UserId) :
    List RecordingConsent :=
  Traces.outputs (step opus) (fun s e => (s.decision id user e).toList) s events

/-- The user declined and has not accepted since. -/
def Withdrawn (taken : List RecordingConsent) : Prop :=
  (taken.filter (· ≠ .pending)).getLast? = some .declined

instance : DecidablePred Withdrawn := fun taken =>
  inferInstanceAs (Decidable ((taken.filter (· ≠ .pending)).getLast? = some .declined))

structure Opened (s : LiveStreams S) : Prop where
  now : s.now = 0
  jobs : s.jobs = []
  consent : ∀ id tap, s.byId.find id = some tap → tap.consent = .empty
  mixer : ∀ id tap m, s.byId.find id = some tap → tap.mixer = some m → m.talkers = .empty

/-- A refusal comes when no checked packet of the user is still on its way to the stream's mixer. -/
def Unraced (s : LiveStreams S) (e : Event) : Prop :=
  ∀ app id user, e = .consent app id user .declined → ∀ job ∈ s.jobs, ¬ (job.stream = id ∧ job.user = user)

lemma decisions_concat (s : LiveStreams S) (events : List Event) (e : Event) (id : StreamId) (user : UserId) :
    decisions opus s (events ++ [e]) id user =
      decisions opus s events id user ++ ((events.foldl (step opus) s).decision id user e).toList := by
  simp [decisions, Traces.outputs_append, Traces.outputs]

lemma Withdrawn.getLast_ne {taken : List RecordingConsent} (h : Withdrawn taken) (c : RecordingConsent) :
    taken.getLast?.getD c ≠ .accepted := by
  induction taken using reverseRecOn with
  | nil => cases h
  | append_singleton =>
    intro hlast
    rw [getLast?_concat, getD_some] at hlast
    rw [Withdrawn, hlast, filter_append] at h
    simp at h

section Run

variable {s : LiveStreams S} {id : StreamId} {user : UserId} (hs : Opened s) (events : List Event)
include hs

lemma now_run : (events.foldl (step opus) s).now = events.length := by
  induction events using reverseRecOn with
  | nil => exact hs.now
  | append_singleton events e ih =>
    rw [foldl_concat, ((events.foldl (step opus) s).stepSpec opus e 0 0).now, ih, length_append, length_singleton]

lemma not_held_of_opened (k : ℕ) : ¬ s.Held id user k := by
  rintro (⟨job, hjob, -⟩ | ⟨tap, m, htap, hm, t, ht, -⟩)
  · rw [hs.jobs] at hjob
    cases hjob
  · rw [hs.mixer id tap m htap hm] at ht
    cases ht

lemma consentOf_run (h : (events.foldl (step opus) s).consentOf id user = some c) :
    c = (decisions opus s events id user).getLast?.getD s.defaultConsent := by
  induction events using reverseRecOn generalizing c with
  | nil =>
    obtain ⟨tap, htap, rfl⟩ := map_eq_some_iff.mp h
    rw [hs.consent id tap htap]
    rfl
  | append_singleton events e ih =>
    have hspec := (events.foldl (step opus) s).stepSpec opus e id user
    rw [foldl_concat, hspec.consent] at h
    rw [decisions_concat]
    cases htaken : (events.foldl (step opus) s).decision id user e with
    | none =>
      rw [htaken] at h
      rw [toList_none, append_nil]
      exact ih h
    | some =>
      rw [htaken] at h
      rw [toList_some, getLast?_concat]
      exact (some.inj h).symm

lemma held_run (hrequired : s.requireConsent = true) (events : List Event)
    (h : (events.foldl (step opus) s).Held id user k) :
    k < events.length ∧ (decisions opus s (events.take k) id user).getLast? = some .accepted := by
  induction events using reverseRecOn with
  | nil => exact absurd h (not_held_of_opened hs k)
  | append_singleton events e ih =>
    have hspec := (events.foldl (step opus) s).stepSpec opus e id user
    rw [foldl_concat] at h
    rw [length_append, length_singleton]
    obtain h | ⟨rfl, hconsent⟩ := hspec.held k h
    · obtain ⟨hlt, hlast⟩ := ih h
      rw [take_append_of_le_length hlt.le]
      exact ⟨hlt.trans (Nat.lt_succ_self _), hlast⟩
    · rw [now_run hs events, take_left]
      refine ⟨Nat.lt_succ_self _, ?_⟩
      have hlast := consentOf_run hs events hconsent
      cases hdec : (decisions opus s events id user).getLast? with
      | none =>
        rw [hdec, LiveStreams.defaultConsent, if_pos hrequired] at hlast
        cases hlast
      | some =>
        rw [hdec] at hlast
        exact congrArg some hlast.symm

lemma not_held_of_withdrawn (hrun : Traces.Meets (step opus) Unraced s events)
    (hout : Withdrawn (decisions opus s events id user)) (k : ℕ) : ¬ (events.foldl (step opus) s).Held id user k := by
  induction events using reverseRecOn with
  | nil => exact not_held_of_opened hs k
  | append_singleton events e ih =>
    obtain ⟨hrun, hlast, -⟩ := (Traces.meets_append _ _ _ _ _).mp hrun
    have hspec := (events.foldl (step opus) s).stepSpec opus e id user
    rw [foldl_concat]
    intro hk
    -- a refusal that still stood before the step rules out what was held and what it could deliver
    have hstood : ¬ Withdrawn (decisions opus s events id user) := by
      intro hstood
      obtain hk | ⟨-, hconsent⟩ := hspec.held k hk
      · exact ih hrun hstood hk
      · exact hstood.getLast_ne _ (consentOf_run hs events hconsent).symm
    rw [decisions_concat] at hout
    cases htaken : (events.foldl (step opus) s).decision id user e with
    | none =>
      rw [htaken, toList_none, append_nil] at hout
      exact hstood hout
    | some d =>
      rw [htaken, toList_some] at hout
      cases d with
      | pending =>
        exact hstood (by simpa [Withdrawn] using hout)
      | accepted => exact hout.getLast_ne .pending (by rw [getLast?_concat]; rfl)
      | declined =>
        obtain ⟨job, hjob, hid, huser, -⟩ := hspec.refused htaken k hk
        cases e with
        | consent app id' user' =>
          rw [LiveStreams.decision_consent] at htaken
          split at htaken
          next hwhich =>
            obtain ⟨rfl, rfl, -⟩ := hwhich
            obtain rfl := some.inj htaken
            exact hlast app id' user' rfl job hjob ⟨hid, huser⟩
          · cases htaken
        | _ => cases htaken

end Run

/-- A tick never mixes what was delivered to it before the user accepted, when consent is required; and
with no refusal that overtakes a checked packet, it mixes nothing of a user who declined. -/
theorem withdrawn_consent_stops {s : LiveStreams S} (hs : Opened s) (events : List Event) (id : StreamId)
    (encoded : Bool) (frame : MixFrame) (hframe : ((events.foldl (step opus) s).mixTick opus id encoded).1 = some frame)
    (part : UserId × Chunk) (hpart : part ∈ frame.parts) (k : ℕ) (hk : k ∈ part.2.sources) :
    (Traces.Meets (step opus) Unraced s events → ¬ Withdrawn (decisions opus s events id part.1)) ∧
      (s.requireConsent = true → (decisions opus s (events.take k) id part.1).getLast? = some .accepted) := by
  have hheld : (events.foldl (step opus) s).Held id part.1 k := .inr (LiveStreams.mixes_of_mixTick hframe hpart hk)
  constructor
  · intro hrun hout
    exact not_held_of_withdrawn hs events hrun hout k hheld
  · intro hrequired
    exact (held_run hs hrequired events hheld).2

namespace Sample

def echo : OpusDecoder Unit := ⟨some (), fun _ payload => some (payload.map fun b => (b.toNat : ℤ), ()), fun _ => none⟩

def opened : LiveStreams Unit :=
  ⟨true, Dict.empty.set 1 ⟨9, .opus, none, .empty, .empty, some (.new 0), []⟩, Dict.empty.set 5 [1], [], 0⟩

def heard : List Event :=
  [.consent 9 1 7 .accepted, .deliver 5 ⟨7, 70, 0, [1], 0⟩, .feed 0, .consent 9 1 7 .declined,
    .consent 9 1 8 .declined, .consent 9 1 7 .accepted, .deliver 5 ⟨7, 70, 960, [2], 20⟩, .feed 0]

def overtaken : List Event :=
  [.consent 9 1 7 .accepted, .deliver 5 ⟨7, 70, 0, [1], 0⟩, .consent 9 1 7 .declined, .feed 0]

lemma opened_opened : Opened opened := by
  refine ⟨rfl, rfl, ?_, ?_⟩
  · intro id tap htap
    simp only [opened, Dict.find_set] at htap
    split at htap
    · obtain rfl := some.inj htap
      rfl
    · cases htap
  · intro id tap m htap hm
    simp only [opened, Dict.find_set] at htap
    split at htap
    · obtain rfl := some.inj htap
      obtain rfl := some.inj hm
      rfl
    · cases htap

theorem withdrawn_consent_stops_heard : decisions echo opened heard 1 7 = [.accepted, .declined, .accepted] ∧
    ∃ frame part, ((heard.foldl (step echo) opened).mixTick echo 1 true).1 = some frame ∧
      part ∈ frame.parts ∧ 6 ∈ part.2.sources ∧ ¬ Withdrawn (decisions echo opened heard 1 part.1) ∧
      (decisions echo opened (heard.take 6) 1 part.1).getLast? = some .accepted := by
  obtain ⟨frame, hframe, hpart⟩ :=
    LiveStreams.mixTick_of_queued echo (heard.foldl (step echo) opened) 1 7 rfl rfl rfl (by decide) rfl
  have hmain := withdrawn_consent_stops opened_opened heard 1 true frame hframe _ hpart 6 mem_cons_self
  refine ⟨rfl, frame, _, hframe, hpart, mem_cons_self, hmain.1 ?_, hmain.2 rfl⟩
  -- at either refusal the packet delivered before it has been fed, and no job is left
  refine ⟨?_, ?_, ?_, ?_, ?_, ?_, ?_, ?_, trivial⟩
  all_goals rintro app id user ⟨⟩ job hjob
  all_goals cases hjob

theorem overtaken_packet_mixed : Opened opened ∧ ∃ frame part,
    ((overtaken.foldl (step echo) opened).mixTick echo 1 true).1 = some frame ∧ part ∈ frame.parts ∧
      1 ∈ part.2.sources ∧ Withdrawn (decisions echo opened overtaken 1 part.1) := by
  obtain ⟨frame, hframe, hpart⟩ :=
    LiveStreams.mixTick_of_queued echo (overtaken.foldl (step echo) opened) 1 7 rfl rfl rfl (by decide) rfl
  have hout : Withdrawn (decisions echo opened overtaken 1 7) := by decide
  exact ⟨opened_opened, frame, _, hframe, hpart, mem_cons_self, hout⟩

end Sample

end AurixVoice.Recording
