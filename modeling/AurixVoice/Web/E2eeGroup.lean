import AurixVoice.E2ee.Group
import AurixVoice.Web.FrameCrypto

/-! The browser's `E2eeGroup`, cut at its awaits. Coins stand for randomness and insertion orders. -/

namespace AurixVoice.Web

open E2ee

structure PeerEntry where
  publicKey : PublicKey
  fingerprint : String
  channels : Finset ChannelId
  sentGeneration : Option UInt8

structure E2eeGroup where
  identity : IdentityKey
  frames : FrameCrypto
  generationValue : UInt8
  secret : Secret
  channelSet : Finset ChannelId
  peers : Dict UserId PeerEntry
  rotationPending : Bool
  posted : List WorkerMessage

namespace E2eeGroup

variable (g : E2eeGroup) (coins : Coins)

variable (c : ChannelId) (u : UserId)

def create (identity : IdentityKey) (secret : Secret) : E2eeGroup where
  identity := identity
  frames := FrameCrypto.new.setOwnKey 0 secret
  generationValue := 0
  secret := secret
  channelSet := ∅
  peers := .empty
  rotationPending := false
  posted := [.ownKey 0 secret]

def joined : List Outgoing × E2eeGroup :=
  if c ∈ g.channelSet then ([], g) else ([.hello c], { g with channelSet := insert c g.channelSet })

def forgetKeys : E2eeGroup :=
  { g with
    frames := g.frames.forgetPeer u, posted := g.posted ++ [.forgetPeer u], rotationPending := true }

def dropPeer : List UserId × E2eeGroup :=
  (if g.frames.hasKeyFor u then [u] else [], ({ g with peers := g.peers.erase u } : E2eeGroup).forgetKeys u)

def peerLeft : List UserId × E2eeGroup :=
  match g.peers.find u with
  | none => ([], g)
  | some peer =>
    let g := { g with peers := g.peers.set u { peer with channels := peer.channels.erase c } }
    if (peer.channels.erase c).Nonempty then ([], g) else g.dropPeer u

def allLeft (c : ChannelId) : List UserId → E2eeGroup → List UserId × E2eeGroup
  | [], g => ([], g)
  | u :: us, g =>
    let (gone, g) := g.peerLeft c u
    let (rest, g) := allLeft c us g
    (gone ++ rest, g)

def absent (members : Finset UserId) : List UserId :=
  (coins.users g.peers.keys).filter fun u =>
    (g.peers.find u).any (fun peer => c ∈ peer.channels) && u ∉ members

def rejoined (members : Finset UserId) : (List Outgoing × List UserId) × E2eeGroup :=
  if c ∉ g.channelSet then (((g.joined c).1, []), (g.joined c).2)
  else
    let (gone, g) := allLeft c (g.absent coins c members) g
    (([.hello c], gone), g)

def left : List UserId × E2eeGroup :=
  if c ∉ g.channelSet then ([], g)
  else allLeft c (coins.users g.peers.keys) { g with channelSet := g.channelSet.erase c }

def dropAll : List UserId → E2eeGroup → List UserId × E2eeGroup
  | [], g => ([], g)
  | u :: us, g =>
    let (gone, g) := g.dropPeer u
    let (rest, g) := dropAll us g
    (gone ++ rest, g)

def reset : List UserId × E2eeGroup :=
  let (gone, g) := dropAll (coins.users g.peers.keys) g
  (gone, { g with channelSet := ∅, rotationPending := true })

variable (crypto : Crypto)

/-- `learnPeer` after it awaited the fingerprint; `previous` is the fingerprint of the entry it found
before. Only tasks add entries and they run one at a time, so if there is an entry now, it is that
one. -/
def learnPeer (g : E2eeGroup) (c : ChannelId) (u : UserId) (publicKey : PublicKey) (previous : Option String) :
    PeerChange × E2eeGroup :=
  match previous with
  | none =>
    (.new,
      { g with
        peers := g.peers.set u ⟨publicKey, fingerprint crypto publicKey, {c}, none⟩, rotationPending := true })
  | some previousFingerprint =>
    let peers := match g.peers.find u with
      | none => g.peers
      | some peer => g.peers.set u ⟨publicKey, fingerprint crypto publicKey, insert c peer.channels, none⟩
    (.keyChanged previousFingerprint, ({ g with peers := peers } : E2eeGroup).forgetKeys u)

structure Wrapping where
  user : UserId
  channel : ChannelId
  publicKey : PublicKey
  generation : UInt8
  secret : Secret

def wrapFor : Option Wrapping :=
  (g.peers.find u).bind fun peer => (coins.channel peer.channels).map fun c =>
    ⟨u, c, peer.publicKey, g.generationValue, g.secret⟩

def wrapped (g : E2eeGroup) (coins : Coins) (w : Wrapping) : Except AurixError (Outgoing × E2eeGroup) :=
  match g.identity.wrap crypto (coins.nonce w.user) w.publicKey w.generation w.secret with
  | .error e => .error e
  | .ok bytes =>
    let peers := match g.peers.find w.user with
      | none => g.peers
      | some peer => g.peers.set w.user { peer with sentGeneration := some w.generation }
    .ok (.senderKey w.channel w.user w.generation bytes, { g with peers := peers })

def rotate (secret : Secret) : E2eeGroup :=
  { g with rotationPending := false, secret := secret, generationValue := g.generationValue + 1 }

end E2eeGroup

end AurixVoice.Web
