import AurixVoice.E2ee.Records

/-! The members of encrypted channels and what is in flight between them, in one queue for each pair. -/

namespace AurixVoice.E2ee

variable (crypto : Crypto)

structure Network where
  groups : UserId → Group
  queue : UserId → UserId → List Wire

namespace Network

def start (ids : UserId → IdentityKey) (secrets : UserId → Secret) : Network where
  groups u := .new crypto (ids u) (secrets u)
  queue _ _ := []

def channels (s : Network) (u : UserId) : Finset ChannelId := (s.groups u).channels

def act (s : Network) (u : UserId) (g : Group) (sent : UserId → List Wire) : Network where
  groups := Function.update s.groups u g
  queue a b := if a = u then s.queue a b ++ sent b else s.queue a b

def take (s : Network) (u v : UserId) (position : ℕ) : Network :=
  { s with queue := fun a b => if a = u ∧ b = v then (s.queue a b).eraseIdx position else s.queue a b }

end Network

inductive Event
  /-- The greeting reaches the members of the channel and the latecomers, who join before it does. -/
  | join (user : UserId) (channel : ChannelId) (latecomers : Finset UserId)
  | leave (user : UserId) (channel : ChannelId) (coins : Coins)
  | deliver (sender receiver : UserId) (position : ℕ) (coins : Coins)
  | rotate (user : UserId) (force : Bool) (coins : Coins)
  | encrypt (user : UserId) (plain : Bytes)
  | decrypt (receiver sender : UserId) (frame : Bytes)

def replies : Except AurixError (List Outgoing × Option PeerChange) → List Outgoing
  | .ok (out, _) => out
  | .error _ => []

def Group.receive (g : Group) (coins : Coins) (u : UserId) (publicKey : PublicKey) : Wire → List Outgoing × Group
  | .hello c =>
    let (result, g) := g.onHello crypto coins c u publicKey
    (replies result, g)
  | .senderKey c generation wrapped =>
    let (result, g) := g.onSenderKey crypto coins c u publicKey generation wrapped
    (replies result, g)
  | .left c => ([], g.peerLeft c u)

def Group.answers (g : Group) (u : UserId) : Wire → Bool
  | .hello c => decide (c ∈ g.channels) && (g.peers.find u).isSome
  | .senderKey c _ _ => decide (c ∈ g.channels) && g.needsOurKey u
  | .left _ => false

def Group.isAhead (g : Group) (frame : Bytes) : Bool :=
  match SenderKey.peek frame with
  | none => false
  | some (generation, counter) => generation = g.key.generation && decide (g.counter ≤ counter)

structure KeepsTracks (u v : UserId) (gu gv : Group) (quv qvu : List Wire) (c : ChannelId) : Prop where
  own : ∀ p, p <+: qvu → recorded (gu.record v) p ∩ gu.channels ≠ {c}
  other : recorded (gv.record u) quv ∩ gv.channels ≠ {c}
  arrived : ∀ m ∈ qvu, m.channel = c → m.isNotice = true

namespace Network

variable (s : Network)

/-- A leave notice goes to the members of the channel, and to those whom the bus has yet to hand
something by that channel. -/
def isNoticed (u : UserId) (c : ChannelId) (v : UserId) : Bool :=
  v ≠ u && (decide (c ∈ s.channels v) || (s.queue u v).any fun m => m.channel = c)

def isNext (u v : UserId) (position : ℕ) (m : Wire) : Bool :=
  m.isNotice || ((s.queue u v).take position).all Wire.isNotice

def step : Event → Network
  | .join u c latecomers =>
    let (out, g) := (s.groups u).joined c
    s.act u g fun v =>
      out.flatMap (Outgoing.wires (fun c => v ≠ u && (decide (c ∈ s.channels v) || decide (v ∈ latecomers))) v)
  | .leave u c coins =>
    if c ∉ s.channels u then s
    else s.act u ((s.groups u).left coins c) fun v => if s.isNoticed u c v then [.left c] else []
  | .deliver u v position coins =>
    if u = v then s
    else match (s.queue u v)[position]? with
      | none => s
      | some m =>
        if s.isNext u v position m then
          let (out, g) := (s.groups v).receive crypto coins u (s.groups u).identity.publicKey m
          (s.take u v position).act v g fun w => out.flatMap (Outgoing.wires (fun _ => false) w)
        else s
  | .rotate u force coins =>
    match (s.groups u).rotate crypto coins force with
    | (.error _, g) => s.act u g fun _ => []
    | (.ok out, g) => s.act u g fun v => out.flatMap (Outgoing.wires (fun _ => false) v)
  | .encrypt u plain => s.act u ((s.groups u).encrypt crypto plain).2 fun _ => []
  | .decrypt v u frame =>
    if (s.groups u).isAhead frame then s
    else s.act v ((s.groups v).decrypt crypto u frame).2 fun _ => []

structure Settled (s : Network) (members : Finset UserId) : Prop where
  arrived : ∀ u ∈ members, ∀ v ∈ members, s.queue u v = []
  rotated : ∀ u ∈ members, (s.groups u).rotationPending = false

def Share (u v : UserId) : Prop := ∃ c, c ∈ s.channels u ∧ c ∈ s.channels v

def Routed (u v : UserId) (coins : Coins) (record : Finset ChannelId) : Prop :=
  s.Share u v → ∀ c, coins.channel record = some c → c ∈ s.channels v

def Heeds : Event → Prop
  | .join u c _ =>
    c ∉ s.channels u → ∀ v generation wrapped, Wire.senderKey c generation wrapped ∉ s.queue v u
  | .leave u c _ =>
    c ∈ s.channels u → ∀ v, v ≠ u → (∃ d, d ≠ c ∧ d ∈ s.channels u ∧ d ∈ s.channels v) →
      KeepsTracks u v (s.groups u) (s.groups v) (s.queue u v) (s.queue v u) c
  | .deliver u v position coins =>
    position = 0 ∧ ∀ m, (s.queue u v)[position]? = some m → (s.groups v).answers u m = true →
      s.Routed v u coins (m.onto ((s.groups v).record u))
  | .rotate u force coins =>
    (force || (s.groups u).rotationPending) = true → ∀ v, s.Routed u v coins ((s.groups u).record v)
  | .encrypt .. | .decrypt .. => True

end Network

end AurixVoice.E2ee
