import AurixVoice.E2ee.GroupReplies
import AurixVoice.E2ee.Unforgeable
import AurixVoice.Library.Traces

/-! Runs of a group with their history. Calls are numbered from 1; `Group::new` draws at time 0. -/

namespace AurixVoice.E2ee

variable (crypto : Crypto)

inductive GroupOp
  | joined (c : ChannelId)
  | rejoined (c : ChannelId) (members : Finset UserId)
  | left (c : ChannelId)
  | reset
  | peerLeft (c : ChannelId) (u : UserId)
  | hello (c : ChannelId) (u : UserId) (publicKey : PublicKey)
  | senderKey (c : ChannelId) (u : UserId) (publicKey : PublicKey) (generation : UInt8) (wrapped : Bytes)
  | rotate (force : Bool)
  | encrypt (plain : Bytes)
  | decrypt (u : UserId) (frame : Bytes)

structure Outcome where
  out : List Outgoing := []
  frame : Option Bytes := none
  drew : Bool := false

def replyOut : Except AurixError (List Outgoing × Option PeerChange) → List Outgoing
  | .ok (out, _) => out
  | .error _ => []

namespace Group

def rotateWraps (g : Group) (coins : Coins) (force : Bool) : List Outgoing :=
  if force || g.rotationPending then
    (wrapAll crypto coins (coins.users g.peers.keys) (g.fresh crypto coins)).1.1
  else []

def apply (g : Group) (coins : Coins) : GroupOp → Outcome × Group
  | .joined c => ({ out := (g.joined c).1 }, (g.joined c).2)
  | .rejoined c members => ({ out := (g.rejoined coins c members).1.1 }, (g.rejoined coins c members).2)
  | .left c => ({}, g.left coins c)
  | .reset => ({}, g.reset)
  | .peerLeft c u => ({}, g.peerLeft c u)
  | .hello c u pk =>
    ({ out := replyOut (g.onHello crypto coins c u pk).1 }, (g.onHello crypto coins c u pk).2)
  | .senderKey c u pk generation wrapped =>
    ({ out := replyOut (g.onSenderKey crypto coins c u pk generation wrapped).1 },
      (g.onSenderKey crypto coins c u pk generation wrapped).2)
  | .rotate force =>
    ({ out := g.rotateWraps crypto coins force, drew := force || g.rotationPending },
      (g.rotate crypto coins force).2)
  | .encrypt plain => ({ frame := some (g.encrypt crypto plain).1 }, (g.encrypt crypto plain).2)
  | .decrypt u frame => ({}, (g.decrypt crypto u frame).2)

/-- The calls that answer `u` with the current key: a message of a peer already known under the
identity key it carries. -/
def Rewraps (g : Group) (u : UserId) : GroupOp → Prop
  | .hello c v pk =>
    v = u ∧ c ∈ g.channels ∧ g.known u = some pk ∧ g.identity.wrappable crypto pk = true
  | .senderKey c v pk generation wrapped =>
    v = u ∧ c ∈ g.channels ∧ g.known u = some pk ∧ g.identity.wrappable crypto pk = true ∧
      g.needsOurKey u = true ∧ (g.identity.unwrap crypto pk generation wrapped).isOk = true
  | _ => False

end Group

structure Wrap where
  user : UserId
  publicKey : PublicKey
  generation : UInt8
  secret : Secret
  bornAt : ℕ
  learnedAt : ℕ

structure SealedFrame where
  frame : Bytes
  generation : UInt8
  secret : Secret
  bornAt : ℕ
  sealedAt : ℕ

structure History where
  group : Group
  now : ℕ
  born : ℕ
  draws : List (ℕ × Secret)
  learned : UserId → ℕ
  wraps : List Wrap
  frames : List SealedFrame

namespace History

def init (identity : IdentityKey) (secret : Secret) : History where
  group := .new crypto identity secret
  now := 1
  born := 0
  draws := [(0, secret)]
  learned _ := 0
  wraps := []
  frames := []

def wrapOf (g : Group) (born : ℕ) (learned : UserId → ℕ) : Outgoing → Option Wrap
  | .hello _ => none
  | .senderKey _ u generation _ =>
    (g.known u).map fun pk => ⟨u, pk, generation, g.secret, born, learned u⟩

def step (h : History) (e : Coins × GroupOp) : History :=
  let (o, g) := h.group.apply crypto e.1 e.2
  let born := if o.drew then h.now else h.born
  let learned u := if g.known u = h.group.known u then h.learned u else h.now
  { group := g
    now := h.now + 1
    born := born
    draws := if o.drew then (h.now, e.1.secret) :: h.draws else h.draws
    learned := learned
    wraps := o.out.filterMap (wrapOf g born learned) ++ h.wraps
    frames := match o.frame with
      | none => h.frames
      | some frame => ⟨frame, g.key.generation, g.secret, born, h.now⟩ :: h.frames }

def secrets (h : History) : List Secret := h.draws.map Prod.snd

end History

def Wrap.Opens (w : Wrap) (f : SealedFrame) : Prop :=
  ∃ plain, (SenderKey.derive crypto w.generation w.secret).openFrame crypto f.frame = .ok plain

end AurixVoice.E2ee
