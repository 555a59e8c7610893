import AurixVoice.Web.FrameCrypto

/-! The parts of the browser client that carry frames, with the messages on their way to the worker. -/

namespace AurixVoice.Web

open E2ee

inductive TransformApi
  | script
  | streams
  deriving DecidableEq

inductive MediaPath
  | webrtc
  | webtransport
  | websocket
  deriving DecidableEq

structure MediaClient where
  api : Option TransformApi
  group : Option (UInt8 × Secret)
  installing : Bool
  page : FrameCrypto
  worker : FrameCrypto
  inbox : List WorkerMessage
  mode : E2eeMode

namespace MediaClient

def new : MediaClient := ⟨none, none, false, .new, .new, [], .plain⟩

variable (crypto : Crypto) (c : MediaClient) (msg : WorkerMessage)

def post : MediaClient :=
  if c.api = some .script then { c with inbox := c.inbox ++ [msg] } else c

@[simp] lemma post_api : (c.post msg).api = c.api := by
  unfold post; split <;> rfl

@[simp] lemma post_group : (c.post msg).group = c.group := by
  unfold post; split <;> rfl

@[simp] lemma post_installing : (c.post msg).installing = c.installing := by
  unfold post; split <;> rfl

@[simp] lemma post_page : (c.post msg).page = c.page := by
  unfold post; split <;> rfl

@[simp] lemma post_worker : (c.post msg).worker = c.worker := by
  unfold post; split <;> rfl

@[simp] lemma post_mode : (c.post msg).mode = c.mode := by
  unfold post; split <;> rfl

lemma post_inbox : (c.post msg).inbox = if c.api = some .script then c.inbox ++ [msg] else c.inbox := by
  unfold post; split <;> rfl

def installOwnKey (generation : UInt8) (secret : Secret) : MediaClient :=
  ({ c with page := c.page.setOwnKey generation secret, installing := false } : MediaClient).post
    (.ownKey generation secret)

def ensureE2ee (api : Option TransformApi) (secret : Secret) : MediaClient :=
  if c.group.isSome then c
  else ({ c with
    api := api, group := some (0, secret), page := .new, worker := .new, inbox := [] } : MediaClient).installOwnKey
      0 secret

def dropE2ee : MediaClient :=
  if c.api = none then { c with group := none, installing := false } else c

def rotate (secret : Secret) : MediaClient :=
  match c.group with
  | none => c
  | some (generation, _) =>
    if c.installing then c else { c with group := some (generation + 1, secret), installing := true }

def derived : MediaClient :=
  match c.group with
  | none => c
  | some (generation, secret) => if c.installing then c.installOwnKey generation secret else c

def setE2eeMode (mode : E2eeMode) : MediaClient :=
  if c.mode = mode then c
  else
    ({ c with mode := mode, page := if c.group.isSome then { c.page with mode := mode } else c.page } :
      MediaClient).post (.mode mode)

def workerNext : MediaClient :=
  match c.inbox with
  | [] => c
  | msg :: inbox => { c with worker := c.worker.onMessage crypto msg, inbox := inbox }

def sendEncoded (data : Bytes) : Option Bytes × MediaClient :=
  match c.api with
  | none => (some data, c)
  | some .script =>
    let (out, worker) := c.worker.transformSend crypto data
    (out, { c with worker := worker })
  | some .streams =>
    let (out, page) := c.page.transformSend crypto data
    (out, { c with page := page })

def sendCaptured (opus : Bytes) : Option Bytes × MediaClient :=
  if c.group.isNone then (none, c)
  else
    let (out, page) := c.page.encrypt crypto opus
    (out.toOption, { c with page := page })

@[simp] lemma rotate_mode (secret : Secret) : (c.rotate secret).mode = c.mode := by
  unfold rotate
  split
  · rfl
  · split <;> rfl

@[simp] lemma derived_mode : c.derived.mode = c.mode := by
  unfold derived
  split
  · rfl
  · split
    · rw [installOwnKey, post_mode]
    · rfl

@[simp] lemma workerNext_mode : (c.workerNext crypto).mode = c.mode := by
  unfold workerNext
  split <;> rfl

@[simp] lemma sendEncoded_mode (data : Bytes) : (c.sendEncoded crypto data).2.mode = c.mode := by
  unfold sendEncoded
  split <;> rfl

end MediaClient

end AurixVoice.Web
