import AurixVoice.Library.Traces
import AurixVoice.Web.JoinClient

namespace AurixVoice.Web

open E2ee Traces MediaClient

def modeAfter (mode : E2eeMode) (inbox : List WorkerMessage) : E2eeMode :=
  inbox.foldl (fun mode msg => match msg with | .mode mode => mode | _ => mode) mode

lemma modeAfter_of_notMem {mode : E2eeMode} {inbox : List WorkerMessage}
    (h : ∀ mode, WorkerMessage.mode mode ∉ inbox) : modeAfter mode inbox = mode := by
  induction inbox with
  | nil => rfl
  | cons msg inbox ih =>
    have hrest := ih fun mode hmem => h mode (List.mem_cons_of_mem msg hmem)
    cases msg with
    | mode mode' => exact absurd List.mem_cons_self (h mode')
    | _ => exact hrest

lemma modeAfter_append (mode : E2eeMode) (inbox : List WorkerMessage) (msg : WorkerMessage) :
    modeAfter mode (inbox ++ [msg]) = modeAfter (modeAfter mode inbox) [msg] := List.foldl_append

lemma MediaClient.mode_setE2eeMode (m : MediaClient) (mode : E2eeMode) : (m.setE2eeMode mode).mode = mode := by
  unfold setE2eeMode
  split
  · assumption
  · rw [post_mode]

structure MediaClient.Synced (api : TransformApi) (m : MediaClient) : Prop where
  reaches : m.api = some api
  group : m.group.isSome
  page : m.page.mode = m.mode
  worker : api = .script → modeAfter m.worker.mode m.inbox = m.mode

namespace MediaClient.Synced

variable {api : TransformApi} {m : MediaClient} (h : m.Synced api)
include h

lemma keeps {m' : MediaClient} (hapi : m'.api = m.api) (hgroup : m'.group.isSome = m.group.isSome)
    (hmode : m'.mode = m.mode) (hpage : m'.page.mode = m.page.mode)
    (hworker : modeAfter m'.worker.mode m'.inbox = modeAfter m.worker.mode m.inbox) : m'.Synced api where
  reaches := hapi.trans h.reaches
  group := hgroup.trans h.group
  page := by rw [hpage, hmode, h.page]
  worker hscript := by rw [hworker, hmode, h.worker hscript]

lemma installOwnKey (generation : UInt8) (secret : Secret) : (m.installOwnKey generation secret).Synced api := by
  unfold MediaClient.installOwnKey
  refine h.keeps ?_ ?_ ?_ ?_ ?_
  · rw [post_api]
  · rw [post_group]
  · rw [post_mode]
  · rw [post_page]
    rfl
  · rw [post_worker, post_inbox]
    split
    · exact modeAfter_append _ _ _
    · rfl

lemma rotate (secret : Secret) : (m.rotate secret).Synced api := by
  unfold MediaClient.rotate
  split
  · exact h
  next hgroup =>
    split
    · exact h
    · exact h.keeps rfl (by rw [hgroup]; rfl) rfl rfl rfl

lemma derived : m.derived.Synced api := by
  unfold MediaClient.derived
  split
  · exact h
  · split
    · exact h.installOwnKey _ _
    · exact h

lemma setE2eeMode (mode : E2eeMode) : (m.setE2eeMode mode).Synced api := by
  unfold MediaClient.setE2eeMode
  split
  · exact h
  · refine ⟨?_, ?_, ?_, ?_⟩
    · rw [post_api]
      exact h.reaches
    · rw [post_group]
      exact h.group
    · simp [h.group]
    · intro hscript
      have hapi : m.api = some .script := hscript ▸ h.reaches
      simp only [post_inbox, post_mode, post_worker, hapi, if_true]
      exact modeAfter_append _ _ _

lemma workerNext (crypto : Crypto) : (m.workerNext crypto).Synced api := by
  unfold MediaClient.workerNext
  split
  · exact h
  next msg inbox hinbox =>
    refine h.keeps rfl rfl rfl rfl ?_
    rw [hinbox]
    cases msg <;> rfl

lemma sendEncoded (crypto : Crypto) (data : Bytes) : (m.sendEncoded crypto data).2.Synced api := by
  have hkeep : ∀ f : FrameCrypto, (f.transformSend crypto data).2.mode = f.mode := by
    intro f
    unfold FrameCrypto.transformSend FrameCrypto.encrypt
    cases hmode : f.mode <;> cases hown : f.own <;> simp [hmode]
  unfold MediaClient.sendEncoded
  split
  · exact h
  · exact h.keeps rfl rfl rfl rfl (by rw [hkeep])
  · exact h.keeps rfl rfl rfl (hkeep m.page) rfl

end MediaClient.Synced

namespace JoinClient

variable {api : TransformApi}

lemma init_synced (api : TransformApi) (secret : Secret) : (init (some api) secret).media.Synced api := by
  have hgroup : ({ new with api := some api, group := some (0, secret) } : MediaClient).Synced api :=
    ⟨rfl, rfl, rfl, fun _ => rfl⟩
  exact hgroup.installOwnKey 0 secret

variable {s : JoinClient}

lemma refreshE2eeMode_synced (h : s.media.Synced api) : s.refreshE2eeMode.media.Synced api := by
  unfold refreshE2eeMode
  split
  · exact h
  · exact h.setE2eeMode _

lemma forgetJoin_synced (h : s.media.Synced api) (c : ChannelId) :
    (s.forgetJoin c).media.Synced api := refreshE2eeMode_synced h

lemma e2eeChannelLeft_synced (h : s.media.Synced api) (c : ChannelId) : (s.e2eeChannelLeft c).media.Synced api := by
  unfold e2eeChannelLeft
  split
  · exact refreshE2eeMode_synced h
  · exact h

lemma joinAck_synced (h : s.media.Synced api) (c : ChannelId) (e2ee : Bool) :
    (s.joinAck c e2ee).media.Synced api := by
  unfold joinAck
  split
  · exact forgetJoin_synced h c
  · apply forgetJoin_synced
    split
    · exact refreshE2eeMode_synced h
    · exact e2eeChannelLeft_synced h c

lemma step_synced (crypto : Crypto) (s : JoinClient) (e : JoinEvent) (h : s.media.Synced api) :
    (s.step crypto e).media.Synced api := by
  cases e with
  | joinChannel =>
    simp only [step, joinChannel]
    split
    · exact h
    · exact refreshE2eeMode_synced h
  | joinAck c e2ee => exact joinAck_synced h c e2ee
  | error =>
    simp only [step, onError]
    split
    · exact h
    · split
      · exact h
      · exact forgetJoin_synced h _
  | joinTimeout c =>
    simp only [step]
    split
    · exact forgetJoin_synced h c
    · exact h
  | leaveChannel c | kick c => exact e2eeChannelLeft_synced h c
  | connectionLost => exact h
  | sessionEnded => exact refreshE2eeMode_synced h
  | rotate secret => exact h.rotate secret
  | derived => exact h.derived
  | workerNext => exact h.workerNext crypto
  | frame data => exact h.sendEncoded crypto data

end JoinClient

end AurixVoice.Web
