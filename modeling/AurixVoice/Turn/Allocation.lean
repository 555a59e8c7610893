import AurixVoice.Library.Dict
import AurixVoice.Turn.Stun

/-! One TURN allocation as in `allocation.rs`; times are in nanoseconds. -/

namespace AurixVoice.Turn

def seconds (n : ℤ) : ℤ := n * 1000000000

def permissionLifetimeSecs : ℤ := 300
def channelLifetimeSecs : ℤ := 600
def maxPermissions : ℕ := 64
def maxChannels : ℕ := 64

inductive ClientProtocol
  | udp
  | tcp
  deriving DecidableEq

structure ClientKey where
  addr : SocketAddr
  proto : ClientProtocol
  deriving DecidableEq

structure ChannelBinding where
  number : UInt16
  peerAddr : SocketAddr
  expiresAt : ℤ
  deriving DecidableEq

def ChannelBinding.isExpired (b : ChannelBinding) (now : ℤ) : Bool := b.expiresAt ≤ now

structure Allocation where
  client : ClientKey
  relayAddr : SocketAddr
  username : Bytes
  realm : Bytes
  permissions : Dict IpAddr ℤ
  channelBindings : List ChannelBinding
  expiresAt : ℤ
  bytesRelayedIn : UInt64
  bytesRelayedOut : UInt64

namespace Allocation

variable (a : Allocation)

def new (client : ClientKey) (relayAddr : SocketAddr) (username realm : Bytes) (lifetimeSecs : ℤ) (now : ℤ) :
    Allocation where
  client := client
  relayAddr := relayAddr
  username := username
  realm := realm
  permissions := .empty
  channelBindings := []
  expiresAt := now + seconds lifetimeSecs
  bytesRelayedIn := 0
  bytesRelayedOut := 0

def relayedIn (len : ℕ) : Allocation :=
  { a with bytesRelayedIn := a.bytesRelayedIn + UInt64.ofNat len }

def relayedOut (len : ℕ) : Allocation :=
  { a with bytesRelayedOut := a.bytesRelayedOut + UInt64.ofNat len }

def isExpired (now : ℤ) : Bool := a.expiresAt ≤ now

def refresh (lifetimeSecs : ℤ) (now : ℤ) : Allocation :=
  { a with expiresAt := now + seconds lifetimeSecs }

def prune (now : ℤ) : Allocation :=
  { a with
    permissions := a.permissions.filterValues fun exp => now < exp
    channelBindings := a.channelBindings.filter fun b => now < b.expiresAt }

def permit (ip : IpAddr) (now : ℤ) : Allocation :=
  { a with permissions := a.permissions.set ip (now + seconds permissionLifetimeSecs) }

def addPermission (ip : IpAddr) (now : ℤ) : Bool × Allocation :=
  let a := a.prune now
  if (a.permissions.find ip).isNone ∧ maxPermissions ≤ a.permissions.keys.card then (false, a)
  else (true, a.permit ip now)

def hasPermission (ip : IpAddr) (now : ℤ) : Bool :=
  match a.permissions.find ip with
  | none => false
  | some exp => now < exp

/-- `peers.iter().all(..)` of `add_permission`: it stops at the first one that is refused. -/
def addPermissions (now : ℤ) : List SocketAddr → Allocation → Bool × Allocation
  | [], a => (true, a)
  | peer :: peers, a =>
    match a.addPermission peer.ip now with
    | (false, a) => (false, a)
    | (true, a) => addPermissions now peers a

/-- The first binding in the way of binding `number` to `peer`, as the loop of
`add_channel_binding` meets it. -/
def conflict (number : UInt16) (peer : SocketAddr) : List ChannelBinding → Option String
  | [] => none
  | b :: bs =>
    if b.number = number ∧ b.peerAddr ≠ peer then some "channel number already bound to another peer"
    else if b.peerAddr = peer ∧ b.number ≠ number then some "peer already bound to another channel"
    else conflict number peer bs

def renew (number : UInt16) (expiresAt : ℤ) : List ChannelBinding → List ChannelBinding
  | [] => []
  | b :: bs => if b.number = number then { b with expiresAt := expiresAt } :: bs else b :: renew number expiresAt bs

def addChannelBinding (number : UInt16) (peer : SocketAddr) (now : ℤ) : Except String Unit × Allocation :=
  let a := a.prune now
  match conflict number peer a.channelBindings with
  | some reason => (.error reason, a)
  | none =>
    let expiresAt := now + seconds channelLifetimeSecs
    if a.channelBindings.any fun b => b.number = number then
      (.ok (), ({ a with channelBindings := renew number expiresAt a.channelBindings } : Allocation).permit peer.ip now)
    else if maxChannels ≤ a.channelBindings.length then (.error "channel table full", a)
    else
      (.ok (), ({ a with channelBindings := a.channelBindings ++ [⟨number, peer, expiresAt⟩] } : Allocation).permit
        peer.ip now)

def getChannelBinding (number : UInt16) (now : ℤ) : Option ChannelBinding :=
  a.channelBindings.find? fun b => b.number = number && !b.isExpired now

def getChannelForPeer (peer : SocketAddr) (now : ℤ) : Option UInt16 :=
  (a.channelBindings.find? fun b => b.peerAddr = peer && !b.isExpired now).map ChannelBinding.number

end Allocation

end AurixVoice.Turn
