import AurixVoice.Web.E2eeGroup

/-! The queue of the browser client: its tasks run one at a time, joins and departures are handled at once. -/

namespace AurixVoice.Web

open E2ee

inductive Body
  | hello (publicKey : Bytes)
  | senderKey (publicKey : Bytes) (generation : UInt8) (key : Bytes)

structure Inbound where
  channel : ChannelId
  user : UserId
  body : Body
  receivedAt : ℕ

inductive Task
  | inbound (m : Inbound)
  | rotate (force : Bool)

inductive InboundAwait
  | unwrap (publicKey : Bytes) (generation : UInt8) (wrapped : Bytes)
  | fingerprint (publicKey : PublicKey) (previous : Option String) (key : Option (UInt8 × Secret))
  | learned (change : Option PeerChange) (key : Option (UInt8 × Secret))
  | setPeerKey (change : Option PeerChange) (generation : UInt8) (secret : Secret)
  | peerKeySet (change : Option PeerChange) (generation : UInt8) (secret : Secret)
  | wrap (w : E2eeGroup.Wrapping)
  | answered (out : List Outgoing)

inductive RotateAwait
  | setOwnKey
  | ownKeySet
  | installed
  | wrap (w : E2eeGroup.Wrapping) (rest : List UserId) (out : List Outgoing)
  | wrapped (rest : List UserId) (out : List Outgoing)

inductive Running
  | inbound (m : Inbound) (pc : InboundAwait)
  | rotate (pc : RotateAwait)

def toPublicKey (bytes : Bytes) : Option PublicKey :=
  if h : bytes.length = 32 then some ⟨bytes.toArray, by simpa using h⟩ else none

namespace E2eeGroup

abbrev Progress (Pc : Type) := E2eeGroup × (Pc ⊕ List Outgoing)

variable (g : E2eeGroup) (m : Inbound)

def learnOrAwait (publicKey : PublicKey) (key : Option (UInt8 × Secret)) : E2eeGroup × InboundAwait :=
  match g.peers.find m.user with
  | none => (g, .fingerprint publicKey none key)
  | some peer =>
    if peer.publicKey = publicKey then
      ({ g with peers := g.peers.set m.user { peer with channels := insert m.channel peer.channels } },
        .learned none key)
    else (g, .fingerprint publicKey (some peer.fingerprint) key)

def KnownAs (u : UserId) (publicKey : PublicKey) : Prop :=
  ∃ peer, g.peers.find u = some peer ∧ peer.publicKey = publicKey

/-- A hello of a peer known under the key it carries enters the peer before the first await. -/
def EntersAtStart : Prop :=
  m.channel ∈ g.channelSet ∧
    ∃ bytes pk, m.body = .hello bytes ∧ toPublicKey bytes = some pk ∧ g.KnownAs m.user pk

def startInbound : Progress InboundAwait :=
  if m.channel ∉ g.channelSet then (g, .inr [])
  else match m.body with
    | .hello publicKey =>
      match toPublicKey publicKey with
      | none => (g, .inr [])
      | some pk => ((g.learnOrAwait m pk none).1, .inl (g.learnOrAwait m pk none).2)
    | .senderKey publicKey generation wrapped => (g, .inl (.unwrap publicKey generation wrapped))

variable (crypto : Crypto) (coins : Coins)

def EntersAt : InboundAwait → Prop
  | .unwrap bytes generation wrapped =>
    ∃ pk secret, toPublicKey bytes = some pk ∧ g.identity.unwrap crypto pk generation wrapped = .ok secret ∧
      g.KnownAs m.user pk
  | .fingerprint _ previous _ => previous = none ∨ (g.peers.find m.user).isSome
  | _ => False

def answer : Progress InboundAwait :=
  match g.wrapFor coins m.user with
  | none => (g, .inl (.answered []))
  | some w => (g, .inl (.wrap w))

def resumeInbound : InboundAwait → Progress InboundAwait
  | .unwrap publicKey generation wrapped =>
    match toPublicKey publicKey with
    | none => (g, .inr [])
    | some pk =>
      match g.identity.unwrap crypto pk generation wrapped with
      | .error _ => (g, .inr [])
      | .ok secret =>
        ((g.learnOrAwait m pk (some (generation, secret))).1,
          .inl (g.learnOrAwait m pk (some (generation, secret))).2)
  | .fingerprint publicKey previous key =>
    let (change, g) := g.learnPeer crypto m.channel m.user publicKey previous
    (g, .inl (.learned (some change) key))
  | .learned change none => if change.isSome then (g, .inr []) else g.answer m coins
  | .learned change (some (generation, secret)) =>
    if (g.peers.find m.user).isNone then (g, .inr []) else (g, .inl (.setPeerKey change generation secret))
  | .setPeerKey change generation secret =>
    ({ g with frames := g.frames.setPeerKey crypto m.user generation secret },
      .inl (.peerKeySet change generation secret))
  | .peerKeySet change generation secret =>
    let g := { g with posted := g.posted ++ [.peerKey m.user generation secret] }
    if change.isNone && (g.peers.find m.user).any (fun peer => peer.sentGeneration.isNone) then g.answer m coins
    else (g, .inr [])
  | .wrap w =>
    match g.wrapped crypto coins w with
    | .error _ => (g, .inr [])
    | .ok (msg, g) => (g, .inl (.answered [msg]))
  | .answered out => (g, .inr out)

def startRotate (force : Bool) : Progress RotateAwait :=
  if force || (g.rotationPending && g.channelSet.Nonempty) then (g.rotate coins.secret, .inl .setOwnKey)
  else (g, .inr [])

def nextWrap : List UserId → List Outgoing → RotateAwait ⊕ List Outgoing
  | [], out => .inr out
  | u :: rest, out =>
    match g.wrapFor coins u with
    | none => .inl (.wrapped rest out)
    | some w => .inl (.wrap w rest out)

def resumeRotate : RotateAwait → Progress RotateAwait
  | .setOwnKey => ({ g with frames := g.frames.setOwnKey g.generationValue g.secret }, .inl .ownKeySet)
  | .ownKeySet => ({ g with posted := g.posted ++ [.ownKey g.generationValue g.secret] }, .inl .installed)
  | .installed => (g, g.nextWrap coins (coins.users g.peers.keys) [])
  | .wrap w rest out =>
    match g.wrapped crypto coins w with
    | .error _ => (g, .inr [])
    | .ok (msg, g) => (g, .inl (.wrapped rest (out ++ [msg])))
  | .wrapped rest out => (g, g.nextWrap coins rest out)

end E2eeGroup

end AurixVoice.Web
