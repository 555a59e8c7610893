import AurixVoice.Web.MediaClient

/-! The counters of the frames a browser seals: page and worker count on their own, under the same keys. -/

namespace AurixVoice.Web

open E2ee

inductive Side
  | page
  | worker
  deriving DecidableEq

def MediaClient.frames (c : MediaClient) : Side → FrameCrypto
  | .page => c.page
  | .worker => c.worker

inductive MediaEvent
  | ensureE2ee (api : Option TransformApi) (secret : Secret)
  | dropE2ee
  | rotate (secret : Secret)
  | derived
  | setE2eeMode (mode : E2eeMode)
  | workerNext
  | startMedia (path : MediaPath)
  | encoded (data : Bytes)
  | captured (opus : Bytes)

structure Seal where
  side : Side
  secret : Secret
  counter : UInt32
  deriving DecidableEq

/-- A client with the media path it is on, the secrets it drew and the frames it sealed, newest first.
A frame may still be in the WebRTC pipeline when that path has been given up. -/
structure SealHistory where
  client : MediaClient
  path : Option MediaPath
  webrtcStarted : Bool
  secrets : List Secret
  seals : List Seal

namespace SealHistory

def init : SealHistory := ⟨.new, none, false, [], []⟩

def onAurx (h : SealHistory) : Bool := h.path = some .webtransport ∨ h.path = some .websocket

def sealer (h : SealHistory) : MediaEvent → Option Side
  | .encoded _ =>
    if !h.webrtcStarted then none
    else match h.client.api with
      | none => none
      | some .script => if h.client.worker.mode = .encrypt then some .worker else none
      | some .streams => if h.client.page.mode = .encrypt then some .page else none
  | .captured _ => if h.onAurx && h.client.group.isSome then some .page else none
  | _ => none

def sealing (h : SealHistory) (e : MediaEvent) : Option Seal :=
  (h.sealer e).bind fun side => (h.client.frames side).own.map fun own => ⟨side, own.secret, own.counter⟩

def draws (h : SealHistory) : MediaEvent → List Secret
  | .ensureE2ee _ secret => if h.client.group.isSome then [] else [secret]
  | .rotate secret => if h.client.group.isSome && !h.client.installing then [secret] else []
  | _ => []

variable (crypto : Crypto)

def apply (h : SealHistory) : MediaEvent → MediaClient
  | .ensureE2ee api secret => h.client.ensureE2ee api secret
  | .dropE2ee => h.client.dropE2ee
  | .rotate secret => h.client.rotate secret
  | .derived => h.client.derived
  | .setE2eeMode mode => h.client.setE2eeMode mode
  | .workerNext => h.client.workerNext crypto
  | .startMedia path => if path = .webrtc then h.client.dropE2ee else h.client
  | .encoded data => if h.webrtcStarted then (h.client.sendEncoded crypto data).2 else h.client
  | .captured opus => if h.onAurx then (h.client.sendCaptured crypto opus).2 else h.client

def step (h : SealHistory) (e : MediaEvent) : SealHistory where
  client := h.apply crypto e
  path := match e with | .startMedia path => some path | _ => h.path
  webrtcStarted := match e with | .startMedia path => h.webrtcStarted || path = .webrtc | _ => h.webrtcStarted
  secrets := h.draws e ++ h.secrets
  seals := (h.sealing e).toList ++ h.seals

end SealHistory

end AurixVoice.Web
