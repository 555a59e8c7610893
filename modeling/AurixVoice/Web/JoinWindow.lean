import AurixVoice.Web.ModeSync

namespace AurixVoice.Web.JoinClient

open E2ee Traces

def Guarded (c : ChannelId) (s : JoinClient) : Prop :=
  (c ∈ s.pendingJoins ∨ c ∈ s.e2eeChannels) ∧ s.media.mode ≠ .plain

/-- The client stays in `c`, every ack of `c` says that it is encrypted, no failure of another request,
timer or lost connection takes its pending join before the ack, and the worker has read the modes
posted to it when it gets a frame. -/
def KeepsJoin (c : ChannelId) (s : JoinClient) : JoinEvent → Prop
  | .joinAck c' e2ee => c' = c → e2ee = true
  | .error clientRef => clientRef = true ∨ s.pendingJoins.head? ≠ some c ∨ c ∈ s.e2eeChannels
  | .joinTimeout c' => c' = c → c ∈ s.e2eeChannels
  | .leaveChannel c' => c' ≠ c
  | .kick c' => c' ≠ c
  | .connectionLost => c ∈ s.e2eeChannels
  | .sessionEnded => False
  | .frame _ => s.media.api = some .script → ∀ mode, WorkerMessage.mode mode ∉ s.media.inbox
  | _ => True

variable {api : TransformApi} {c : ChannelId} {s : JoinClient}

lemma mode_refreshE2eeMode (h : s.media.Synced api) : s.refreshE2eeMode.media.mode = s.targetMode := by
  unfold refreshE2eeMode
  split
  next hnone =>
    have hgroup := h.group
    rw [Option.isNone_iff_eq_none.mp hnone] at hgroup
    cases hgroup
  · exact s.media.mode_setE2eeMode s.targetMode

lemma targetMode_ne_plain (h : c ∈ s.pendingJoins ∨ c ∈ s.e2eeChannels) : s.targetMode ≠ .plain := by
  unfold targetMode
  split_ifs with hchannels hpending
  · exact nofun
  · exact nofun
  · rcases h with h | h
    · rw [not_not.mp hpending] at h
      cases h
    · exact absurd ⟨c, h⟩ hchannels

lemma pendingJoins_refreshE2eeMode (s : JoinClient) : s.refreshE2eeMode.pendingJoins = s.pendingJoins := by
  unfold refreshE2eeMode
  split <;> rfl

lemma e2eeChannels_refreshE2eeMode (s : JoinClient) : s.refreshE2eeMode.e2eeChannels = s.e2eeChannels := by
  unfold refreshE2eeMode
  split <;> rfl

section

variable (h : s.media.Synced api)
include h

lemma guarded_refreshE2eeMode (hc : c ∈ s.pendingJoins ∨ c ∈ s.e2eeChannels) : s.refreshE2eeMode.Guarded c := by
  refine ⟨?_, ?_⟩
  · rwa [pendingJoins_refreshE2eeMode, e2eeChannels_refreshE2eeMode]
  · rw [mode_refreshE2eeMode h]
    exact targetMode_ne_plain hc

variable {c' : ChannelId}

lemma guarded_forgetJoin (hg : c ∈ s.pendingJoins ∨ c ∈ s.e2eeChannels)
    (hne : c' = c → c ∈ s.e2eeChannels) : (s.forgetJoin c').Guarded c := by
  refine guarded_refreshE2eeMode (by exact h) ?_
  by_cases heq : c' = c
  · exact .inr (hne heq)
  · exact hg.imp_left (List.mem_erase_of_ne fun h => heq h.symm).mpr

lemma guarded_e2eeChannelLeft (hg : s.Guarded c) (hne : c' ≠ c) : (s.e2eeChannelLeft c').Guarded c := by
  unfold e2eeChannelLeft
  split
  · refine guarded_refreshE2eeMode (by exact h) ?_
    exact hg.1.imp_right fun hc => Finset.mem_erase.mpr ⟨hne.symm, hc⟩
  · exact hg

lemma guarded_e2eeChannelJoined (hg : s.Guarded c) : (s.e2eeChannelJoined c').Guarded c := by
  refine guarded_refreshE2eeMode (by exact h) ?_
  exact hg.1.imp_right Finset.mem_insert_of_mem

lemma guarded_joinAck {e2ee : Bool} (hg : s.Guarded c) (hok : c' = c → e2ee = true) :
    (s.joinAck c' e2ee).Guarded c := by
  have hgroup : s.media.group.isNone = false := by
    rw [← Option.not_isSome, h.group]
    rfl
  simp only [joinAck, hgroup]
  cases e2ee with
  | true =>
    refine guarded_forgetJoin (refreshE2eeMode_synced (by exact h)) ?_ ?_
    · exact (guarded_e2eeChannelJoined h hg).1
    · rintro rfl
      rw [e2eeChannels_refreshE2eeMode]
      exact Finset.mem_insert_self _ _
  | false =>
    have hne : c' ≠ c := fun heq => Bool.false_ne_true (hok heq)
    refine guarded_forgetJoin (e2eeChannelLeft_synced h c') ?_ fun heq => absurd heq hne
    exact (guarded_e2eeChannelLeft h hg hne).1

end

lemma step_guarded (crypto : Crypto) {e : JoinEvent} (h : s.media.Synced api) (hg : s.Guarded c)
    (hok : s.KeepsJoin c e) : (s.step crypto e).Guarded c := by
  cases e with
  | joinChannel =>
    simp only [step, joinChannel]
    split
    · exact hg
    · refine guarded_refreshE2eeMode (by exact h) ?_
      exact hg.1.imp_left (List.mem_append_left _)
  | joinAck => exact guarded_joinAck h hg hok
  | error =>
    simp only [step, onError]
    split
    · exact hg
    next hnone =>
      split
      · exact hg
      next c' rest hpending =>
        refine guarded_forgetJoin h hg.1 ?_
        rintro rfl
        rcases hok with hok | hok | hok
        · exact absurd hok hnone
        · exact absurd (by rw [hpending]; rfl) hok
        · exact hok
  | joinTimeout =>
    simp only [step]
    split
    · exact guarded_forgetJoin h hg.1 hok
    · exact hg
  | leaveChannel | kick => exact guarded_e2eeChannelLeft h hg hok
  | connectionLost => exact ⟨.inr hok, hg.2⟩
  | sessionEnded => exact hok.elim
  | rotate | derived | workerNext | frame => exact ⟨hg.1, by simpa [step] using hg.2⟩

def Sealed (crypto : Crypto) (m : MediaClient) (data : Bytes) : Prop :=
  ∀ out, (m.sendEncoded crypto data).1 = some out →
    ∃ own, (m.page.own = some own ∨ m.worker.own = some own) ∧
      out = (own.key crypto).sealFrame crypto own.counter data

lemma transformSend_sealed (crypto : Crypto) {f : FrameCrypto} (hmode : f.mode ≠ .plain) {data out : Bytes}
    (h : (f.transformSend crypto data).1 = some out) :
    ∃ own, f.own = some own ∧ out = (own.key crypto).sealFrame crypto own.counter data := by
  unfold FrameCrypto.transformSend at h
  cases hm : f.mode with
  | plain => exact absurd hm hmode
  | hold => simp [hm] at h
  | encrypt =>
    cases hown : f.own with
    | none => simp [hm, hown] at h
    | some own =>
      simp only [hm, hown, Option.isNone_some, Bool.false_eq_true, if_false, FrameCrypto.encrypt,
        Except.toOption, Option.some.injEq] at h
      exact ⟨own, rfl, h.symm⟩

lemma sealed_of_guarded (crypto : Crypto) (h : s.media.Synced api) (hg : s.Guarded c) {data : Bytes}
    (hok : s.KeepsJoin c (.frame data)) : Sealed crypto s.media data := by
  intro out hout
  cases api with
  | script =>
    have hmode : s.media.worker.mode ≠ .plain := by
      have hworker := h.worker rfl
      rw [modeAfter_of_notMem (hok h.reaches)] at hworker
      rw [hworker]
      exact hg.2
    simp only [MediaClient.sendEncoded, h.reaches] at hout
    obtain ⟨own, hown, hseal⟩ := transformSend_sealed crypto hmode hout
    exact ⟨own, .inr hown, hseal⟩
  | streams =>
    have hmode : s.media.page.mode ≠ .plain := by
      rw [h.page]
      exact hg.2
    simp only [MediaClient.sendEncoded, h.reaches] at hout
    obtain ⟨own, hown, hseal⟩ := transformSend_sealed crypto hmode hout
    exact ⟨own, .inl hown, hseal⟩

theorem no_plaintext_around_encrypted_join (crypto : Crypto) (api : TransformApi) (secret : Secret)
    (before : List JoinEvent) (c : ChannelId) (es : List JoinEvent) (data : Bytes)
    (hc : c ∉ (before.foldl (step crypto) (init (some api) secret)).pendingJoins)
    (hes : Meets (step crypto) (KeepsJoin c)
      ((before.foldl (step crypto) (init (some api) secret)).step crypto (.joinChannel c)) (es ++ [.frame data])) :
    Sealed crypto (es.foldl (step crypto)
      ((before.foldl (step crypto) (init (some api) secret)).step crypto (.joinChannel c))).media data := by
  have hbefore : (before.foldl (step crypto) (init (some api) secret)).media.Synced api :=
    foldl_invariant (fun s : JoinClient => s.media.Synced api) (step_synced crypto) before (init_synced api secret)
  generalize before.foldl (step crypto) (init (some api) secret) = s at hc hes hbefore
  have hjoined : (s.step crypto (.joinChannel c)).Guarded c := by
    simp only [step, joinChannel, hc, if_false]
    refine guarded_refreshE2eeMode (by exact hbefore) (.inl ?_)
    exact List.mem_append_right _ (List.mem_singleton.mpr rfl)
  obtain ⟨hkeeps, hframe, -⟩ := (meets_append _ _ _ _ _).mp hes
  have hinv := meets_invariant (fun s : JoinClient => s.media.Synced api ∧ s.Guarded c)
    (fun s e hs hok => ⟨step_synced crypto s e hs.1, step_guarded crypto hs.1 hs.2 hok⟩) hkeeps
    ⟨step_synced crypto s _ hbefore, hjoined⟩
  exact sealed_of_guarded crypto hinv.1 hinv.2 hframe

theorem no_plaintext_around_encrypted_join_sample :
    let joined := ([.workerNext].foldl (step .masks) (init (some .script) (Vector.replicate 32 5))).step .masks
      (.joinChannel 7)
    let es : List JoinEvent := [.workerNext, .frame [1], .error true, .joinAck 7 true, .workerNext]
    Sealed .masks (es.foldl (step .masks) joined).media [2] ∧
      ((es.foldl (step .masks) joined).media.sendEncoded .masks [2]).1 ≠ none := by
  intro joined es
  refine ⟨?_, by decide⟩
  refine no_plaintext_around_encrypted_join .masks .script _ [.workerNext] 7 es [2] (by decide) ?_
  refine ⟨trivial, fun _ => nofun, .inl rfl, fun _ => rfl, trivial, fun _ => nofun, trivial⟩

theorem unattributed_error_releases_plaintext :
    let s := [.joinChannel 7, .error false].foldl (step .masks) (init (some .streams) (Vector.replicate 32 5))
    (s.media.sendEncoded .masks [1]).1 = some [1] ∧
      7 ∈ ([.frame [1], .joinAck 7 true].foldl (step .masks) s).e2eeChannels := by
  decide

end AurixVoice.Web.JoinClient
