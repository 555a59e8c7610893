import AurixVoice.E2ee.PeerKeys
import AurixVoice.Library.Dict

/-!
The browser's `FrameCrypto` in the page and in the worker. A call that awaits is one step where nothing it read
before can change until it resumes.
-/

namespace AurixVoice.Web

open E2ee

inductive E2eeMode
  | plain
  | hold
  | encrypt
  deriving DecidableEq

structure OwnKey where
  generation : UInt8
  secret : Secret
  counter : UInt32
  deriving DecidableEq

def OwnKey.key (crypto : Crypto) (own : OwnKey) : SenderKey := .derive crypto own.generation own.secret

structure FrameCrypto where
  mode : E2eeMode
  own : Option OwnKey
  peers : Dict UserId PeerKeys
  layout : Dict String UserId
  rotateSignalled : Bool

namespace FrameCrypto

def new : FrameCrypto := ⟨.plain, none, .empty, .empty, false⟩

variable (crypto : Crypto) (f : FrameCrypto)

def setOwnKey (generation : UInt8) (secret : Secret) : FrameCrypto :=
  { f with own := some ⟨generation, secret, 0⟩, rotateSignalled := false }

def forgetPeer (u : UserId) : FrameCrypto := { f with peers := f.peers.erase u }

def hasKeyFor (u : UserId) : Bool :=
  match f.peers.find u with
  | none => false
  | some keys => !keys.isEmpty

def setLayout (entries : List (String × Option UserId)) : FrameCrypto :=
  { f with layout := entries.foldl (fun d e => match e.2 with | none => d | some u => d.set e.1 u) .empty }

def setPeerKey (u : UserId) (generation : UInt8) (secret : Secret) : FrameCrypto :=
  { f with peers := f.peers.set u (((f.peers.find u).getD .empty).insert (.derive crypto generation secret)) }

def encrypt (plain : Bytes) : Except AurixError Bytes × FrameCrypto :=
  match f.own with
  | none => (.error (.encryption "no E2EE sender key"), f)
  | some own =>
    (.ok ((own.key crypto).sealFrame crypto own.counter plain),
      { f with
        own := some { own with counter := own.counter + 1 }
        rotateSignalled := f.rotateSignalled || rotateAtCounter ≤ own.counter + 1 })

def decrypt (u : UserId) (frame : Bytes) : Except AurixError Bytes × FrameCrypto :=
  match f.peers.find u with
  | none => (.error (.encryption "unknown E2EE sender"), f)
  | some keys =>
    let (result, keys) := keys.openFrame crypto frame
    (result, { f with peers := f.peers.set u keys })

def transformSend (data : Bytes) : Option Bytes × FrameCrypto :=
  match f.mode with
  | .plain => (some data, f)
  | .hold => (none, f)
  | .encrypt =>
    if f.own.isNone then (none, f)
    else
      let (result, f) := f.encrypt crypto data
      (result.toOption, f)

def transformReceive (mid : Option String) (data : Bytes) : Option Bytes × FrameCrypto :=
  if f.mode ≠ .encrypt then (some data, f)
  else match mid.bind f.layout.find with
    | none => (none, f)
    | some u =>
      let (result, f) := f.decrypt crypto u data
      (result.toOption, f)

end FrameCrypto

inductive WorkerMessage
  | mode (mode : E2eeMode)
  | ownKey (generation : UInt8) (secret : Secret)
  | peerKey (u : UserId) (generation : UInt8) (secret : Secret)
  | forgetPeer (u : UserId)
  | layout (entries : List (String × Option UserId))

def FrameCrypto.onMessage (crypto : Crypto) (f : FrameCrypto) : WorkerMessage → FrameCrypto
  | .mode mode => { f with mode := mode }
  | .ownKey generation secret => f.setOwnKey generation secret
  | .peerKey u generation secret => f.setPeerKey crypto u generation secret
  | .forgetPeer u => f.forgetPeer u
  | .layout entries => f.setLayout entries

end AurixVoice.Web
