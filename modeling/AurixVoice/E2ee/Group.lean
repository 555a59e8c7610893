import AurixVoice.E2ee.PeerKeys
import AurixVoice.Library.Dict

/-!
One client's encrypted groups, as in `e2ee.rs`. Randomness and iteration orders come as `Coins`; a fallible
call returns the group it leaves behind, on the error paths too.
-/

namespace AurixVoice.E2ee

variable (crypto : Crypto)

structure Coins where
  secret : Secret
  nonce : UserId → Vector UInt8 12
  users : Finset UserId → List UserId
  users_nodup : ∀ s, (users s).Nodup
  mem_users : ∀ s u, u ∈ users s ↔ u ∈ s
  channel : Finset ChannelId → Option ChannelId
  channel_eq_none : ∀ s, channel s = none ↔ s = ∅
  mem_of_channel : ∀ s c, channel s = some c → c ∈ s

def Coins.sorted (secret : Secret) : Coins where
  secret := secret
  nonce _ := Vector.replicate 12 0
  users := ascending
  users_nodup := nodup_ascending
  mem_users _ _ := mem_ascending
  channel s := (ascending s).head?
  channel_eq_none s := by
    rw [List.head?_eq_none_iff, List.eq_nil_iff_forall_not_mem, Finset.eq_empty_iff_forall_notMem]
    simp [mem_ascending]
  mem_of_channel _ _ h := mem_ascending.mp (List.mem_of_head? h)

inductive Outgoing
  | hello (channelId : ChannelId)
  | senderKey (channelId : ChannelId) (user : UserId) (generation : UInt8) (wrapped : Bytes)
  deriving DecidableEq

structure Peer where
  publicKey : PublicKey
  channels : Finset ChannelId
  keys : PeerKeys
  sentGeneration : Option UInt8

inductive PeerChange
  | new
  | keyChanged (previousFingerprint : String)
  deriving DecidableEq

structure Group where
  identity : IdentityKey
  secret : Secret
  key : SenderKey
  counter : UInt32
  channels : Finset ChannelId
  peers : Dict UserId Peer
  rotationPending : Bool

namespace Group

variable (g : Group) (coins : Coins)

variable (c : ChannelId) (u : UserId) (publicKey : PublicKey)

def new (identity : IdentityKey) (secret : Secret) : Group where
  identity := identity
  secret := secret
  key := .derive crypto 0 secret
  counter := 0
  channels := ∅
  peers := .empty
  rotationPending := false

def generation : UInt8 := g.key.generation

def awaitingGeneration (generation : UInt8) : Bool :=
  match g.peers.find u with
  | none => false
  | some peer => !peer.keys.hasGeneration generation

def joined : List Outgoing × Group :=
  if c ∈ g.channels then ([], g) else ([.hello c], { g with channels := insert c g.channels })

def peerLeft : Group :=
  match g.peers.find u with
  | none => g
  | some peer =>
    if peer.channels.erase c = ∅ then
      { g with peers := g.peers.erase u, rotationPending := true }
    else { g with peers := g.peers.set u { peer with channels := peer.channels.erase c } }

def absent (members : Finset UserId) : List UserId :=
  (coins.users g.peers.keys).filter fun u =>
    (match g.peers.find u with | none => false | some peer => c ∈ peer.channels) && u ∉ members

def dropAbsent (c : ChannelId) : List UserId → Group → List UserId × Group
  | [], g => ([], g)
  | u :: us, g =>
    let g := g.peerLeft c u
    let (gone, g') := dropAbsent c us g
    (if (g.peers.find u).isNone then u :: gone else gone, g')

def rejoined (members : Finset UserId) : (List Outgoing × List UserId) × Group :=
  if c ∉ g.channels then (((g.joined c).1, []), (g.joined c).2)
  else
    let (gone, g) := dropAbsent c (g.absent coins c members) g
    (([.hello c], gone), g)

def withoutChannel : Dict UserId Peer :=
  g.peers.mapValues fun peer => { peer with channels := peer.channels.erase c }

def gone : List UserId :=
  (coins.users (g.withoutChannel c).keys).filter fun u =>
    match (g.withoutChannel c).find u with | none => false | some peer => peer.channels = ∅

def left : Group :=
  if c ∉ g.channels then g
  else
    { g with
      channels := g.channels.erase c
      peers := (g.gone coins c).foldl Dict.erase (g.withoutChannel c)
      rotationPending := g.rotationPending || !(g.gone coins c).isEmpty }

def reset : Group :=
  { g with channels := ∅, peers := .empty, rotationPending := true }

def learnPeer : Option PeerChange × Group :=
  match g.peers.find u with
  | some peer =>
    if peer.publicKey = publicKey then
      (none, { g with peers := g.peers.set u { peer with channels := insert c peer.channels } })
    else
      (some (.keyChanged (fingerprint crypto peer.publicKey)),
        { g with
          peers := g.peers.set u
            { publicKey := publicKey, channels := insert c peer.channels, keys := .empty,
              sentGeneration := none }
          rotationPending := true })
  | none =>
    (some .new,
      { g with
        peers := g.peers.set u
          { publicKey := publicKey, channels := {c}, keys := .empty, sentGeneration := none }
        rotationPending := true })

def wrapFor : Except AurixError (Option Outgoing) × Group :=
  match g.peers.find u with
  | none => (.ok none, g)
  | some peer =>
    match coins.channel peer.channels with
    | none => (.ok none, g)
    | some c =>
      match g.identity.wrap crypto (coins.nonce u) peer.publicKey g.key.generation g.secret with
      | .error e => (.error e, g)
      | .ok wrapped =>
        (.ok (some (.senderKey c u g.key.generation wrapped)),
          { g with peers := g.peers.set u { peer with sentGeneration := some g.key.generation } })

def answer (change : Option PeerChange) : Except AurixError (List Outgoing × Option PeerChange) × Group :=
  match g.wrapFor crypto coins u with
  | (.error e, g) => (.error e, g)
  | (.ok out, g) => (.ok (out.toList, change), g)

def onHello : Except AurixError (List Outgoing × Option PeerChange) × Group :=
  if c ∉ g.channels then (.ok ([], none), g)
  else
    let (change, g) := g.learnPeer crypto c u publicKey
    if change.isSome then (.ok ([], change), g) else g.answer crypto coins u none

def addKey (key : SenderKey) : Group :=
  match g.peers.find u with
  | none => g
  | some peer => { g with peers := g.peers.set u { peer with keys := peer.keys.insert key } }

def needsOurKey : Bool :=
  match g.peers.find u with
  | none => false
  | some peer => peer.sentGeneration.isNone

def onSenderKey (generation : UInt8)
    (wrapped : Bytes) : Except AurixError (List Outgoing × Option PeerChange) × Group :=
  if c ∉ g.channels then (.ok ([], none), g)
  else match g.identity.unwrap crypto publicKey generation wrapped with
    | .error e => (.error e, g)
    | .ok secret =>
      let (change, g) := g.learnPeer crypto c u publicKey
      let g := g.addKey u (.derive crypto generation secret)
      if change.isNone && g.needsOurKey u then g.answer crypto coins u change
      else (.ok ([], change), g)

def wrapAll (coins : Coins) : List UserId → Group → (List Outgoing × Option AurixError) × Group
  | [], g => (([], none), g)
  | u :: us, g =>
    match g.wrapFor crypto coins u with
    | (.error e, g) => (([], some e), g)
    | (.ok out, g) =>
      let ((rest, e), g) := wrapAll coins us g
      ((out.toList ++ rest, e), g)

def fresh : Group :=
  { g with
    rotationPending := false
    secret := coins.secret
    key := .derive crypto (g.key.generation + 1) coins.secret
    counter := 0 }

def rotate (force : Bool) : Except AurixError (List Outgoing) × Group :=
  if !(force || g.rotationPending) then (.ok [], g)
  else match wrapAll crypto coins (coins.users g.peers.keys) (g.fresh crypto coins) with
    | ((_, some e), g) => (.error e, g)
    | ((out, none), g) => (.ok out, g)

def encrypt (plain : Bytes) : Bytes × Group :=
  (g.key.sealFrame crypto g.counter plain,
    { g with
      counter := g.counter + 1
      rotationPending := g.rotationPending || rotateAtCounter ≤ g.counter + 1 })

def decrypt (frame : Bytes) : Except AurixError Bytes × Group :=
  match g.peers.find u with
  | none => (.error (.encryption "unknown E2EE sender"), g)
  | some peer =>
    let (result, keys) := peer.keys.openFrame crypto frame
    (result, { g with peers := g.peers.set u { peer with keys := keys } })

end Group

end AurixVoice.E2ee
