import AurixVoice.Cascade.Relay
import AurixVoice.Protocol.DownlinkMeta
import AurixVoice.Protocol.ReplayWindow

/-! The datagrams of the cascade: what a node seals for its peers, and what it takes from them. -/

namespace AurixVoice.Cascade

open Protocol (Bytes Suite MediaKeys AurixPacket PacketHeader WideReplayWindow)

structure AddrForm (Addr : Type) where
  new : Bytes → UInt16 → Addr
  ip : Addr → Bytes
  port : Addr → UInt16
  canonical : Addr → Addr
  display : Addr → String

inductive CascadeControl (Addr : Type)
  | ping (nonce : UInt64)
  | pong (nonce : UInt64)
  | hello (addr : Addr)
  deriving DecidableEq

namespace CascadeControl

variable {Addr : Type} (form : AddrForm Addr)

def kindPing : UInt8 := 1
def kindPong : UInt8 := 2
def kindHello : UInt8 := 3

def toPacket (c : CascadeControl Addr) : AurixPacket :=
  .new (.new .heartbeat 0 0 0) <| match c with
    | ping nonce => kindPing :: putU64 nonce
    | pong nonce => kindPong :: putU64 nonce
    | hello addr =>
      kindHello :: (if (form.ip addr).length = 4 then 4 else 6) :: (form.ip addr ++ putU16 (form.port addr))

def helloFrom : Bytes → Except AurixError (CascadeControl Addr)
  | [] => .error (.transport "Malformed cascade hello")
  | family :: p =>
    if family = 4 ∧ p.length = 6 then .ok (hello (form.new (p.take 4) (getU16 (p.drop 4)).1))
    else if family = 6 ∧ p.length = 18 then .ok (hello (form.new (p.take 16) (getU16 (p.drop 16)).1))
    else .error (.transport "Malformed cascade hello")

def fromPacket (pkt : AurixPacket) : Except AurixError (Option (CascadeControl Addr)) :=
  if pkt.header.packetType ≠ .heartbeat then .ok none
  else
    match pkt.payload with
    | [] => .error (.transport "Empty cascade control")
    | kind :: p =>
      if (kind = kindPing ∨ kind = kindPong) ∧ p.length ≠ 8 then
        .error (.transport "Malformed cascade probe")
      else if kind = kindPing then .ok (some (ping (getU64 p).1))
      else if kind = kindPong then .ok (some (pong (getU64 p).1))
      else if kind = kindHello then (helloFrom form p).map some
      else .error (.transport s!"Unknown cascade control kind {kind}")

end CascadeControl

structure InboundRelay where
  sender : UserId
  hops : UInt8
  packet : AurixPacket
  deriving DecidableEq

inductive Inbound (Addr : Type)
  | audio (relay : InboundRelay)
  | control (control : CascadeControl Addr)
  deriving DecidableEq

structure CascadeNode (Addr : Type) where
  relay : CascadeRelay Addr
  window : Addr → WideReplayWindow
  relaySsrc : UInt32
  relayCounter : UInt64

namespace CascadeNode

variable {Addr : Type} [LinearOrder Addr] (suite : Suite) (form : AddrForm Addr) (keys : MediaKeys)

variable (n : CascadeNode Addr) (data : Bytes)

def new (staticPeers : Finset Addr) (relaySsrc : UInt32) (secs : UInt64) : CascadeNode Addr where
  relay := .new staticPeers
  window _ := default
  relaySsrc := relaySsrc
  relayCounter := (secs &&& 0xFFFFFFFF) <<< 32

def setDynamicPeers (peers : Finset Addr) : CascadeNode Addr :=
  { n with
    relay := n.relay.setDynamicPeers peers
    -- `or_insert_with`: a peer that stays allowed keeps its window, any other gets a fresh one
    window := fun a => if a ∈ n.relay.allowedPeers then n.window a else default }

def addPeer (channel : ChannelId) (peer : Addr) : Except AurixError Unit × CascadeNode Addr :=
  if peer ∉ n.relay.allowedPeers then
    (.error (.authorizationDenied (form.display peer ++ " is not an allowed cascade peer")), n)
  else
    let route := (n.relay.routes.find channel).getD (.default Addr)
    let route := if peer ∈ route.origin then route else { route with origin := route.origin ++ [peer] }
    (.ok (), { n with relay := { n.relay with
      routes := n.relay.routes.set channel route
      routesByHash := n.relay.routesByHash.set (Protocol.channelIdHash suite channel) channel } })

def setChannelRoute (channel : ChannelId) (route : ChannelRoute Addr) : CascadeNode Addr :=
  { n with relay := n.relay.setChannelRoute (Protocol.channelIdHash suite) channel route }

def sendAll (peers : List Addr) : List (Addr × Bytes) := peers.map fun peer => (peer, data)

def forwardToPeers (channel : ChannelId) (sender : UserId) (packet : AurixPacket)
    (level : Option UInt8) : List (Addr × Bytes) × CascadeNode Addr :=
  if packet.header.hasFlag .relay then ([], n)
  else
    let peers := n.relay.channelPeers channel
    if peers = [] then ([], n)
    else
      let packet := (level.map packet.withAudioLevel).getD packet
      let envelope := AurixPacket.relayEnvelope suite packet n.relaySsrc n.relayCounter sender
      (sendAll (envelope.sealPacket suite keys) peers, { n with relayCounter := n.relayCounter + 1 })

def forwardInbound (src : Addr) (inbound : InboundRelay) : List (Addr × Bytes) × CascadeNode Addr :=
  match n.relay.forwardTargets inbound.packet.header.channelIdHash src inbound.hops.toNat with
  | none => ([], n)
  | some targets =>
    if targets = [] then ([], n)
    else
      let envelope := AurixPacket.relayEnvelopeHop suite inbound.packet n.relaySsrc n.relayCounter
        inbound.sender (inbound.hops + 1)
      (sendAll (envelope.sealPacket suite keys) targets, { n with relayCounter := n.relayCounter + 1 })

def sealControl (control : CascadeControl Addr) : Bytes × CascadeNode Addr :=
  ((AurixPacket.relayEnvelope suite (control.toPacket form) n.relaySsrc n.relayCounter 0).sealPacket suite
    keys, { n with relayCounter := n.relayCounter + 1 })

def envelope (data : Bytes) : Except AurixError AurixPacket :=
  match AurixPacket.decodeBounded suite data Protocol.maxRelayPacketSize with
  | .error e => .error e
  | .ok e =>
    if e.header.packetType ≠ .relay ∨ !e.header.hasFlag .relay then
      .error (.transport "Cascade datagram is not a Relay envelope")
    else
      match e.openPacket suite keys with
      | (false, _) => .error (.authenticationFailed "Cascade packet authentication failed")
      | (true, e) => .ok e

def counterOf (h : PacketHeader) : UInt64 := (h.timestamp.toUInt64 <<< 32) ||| h.sequence.toUInt64

def openEnvelope : Except AurixError (UInt64 × UserId × Option UInt8 × AurixPacket) :=
  match envelope suite keys data with
  | .error e => .error e
  | .ok e =>
    match e.relayInnerHop suite with
    | .error e => .error e
    | .ok inner => .ok (counterOf e.header, inner)

def replayCheck (src : Addr) (counter : UInt64) : Except AurixError Unit × CascadeNode Addr :=
  if src ∉ n.relay.allowedPeers then
    (.error (.authorizationDenied ("Cascade packet from unknown peer " ++ form.display src)), n)
  else
    let (fresh, window) := (n.window src).checkAndUpdateU64 counter.toNat
    let n := { n with window := Function.update n.window src window }
    if fresh then (.ok (), n) else (.error (.authenticationFailed "Replayed cascade packet"), n)

def classify (sender : UserId) (hop : Option UInt8) (inner : AurixPacket) : Except AurixError (Inbound Addr) :=
  match CascadeControl.fromPacket form inner with
  | .error e => .error e
  | .ok (some control) => .ok (.control control)
  | .ok none =>
    if inner.header.packetType ≠ .audio ∧ inner.header.packetType ≠ .audioFec then
      .error (.transport "Relay envelope must carry an audio packet")
    else
      match hop with
      | none => .ok (.audio ⟨sender, 1, inner⟩)
      | some h =>
        if 1 ≤ h ∧ h ≤ Protocol.maxRelayHops then .ok (.audio ⟨sender, h, inner⟩)
        else .error (.transport s!"Relay envelope hop count {h} out of range")

def authenticate (src : Addr) : Except AurixError (Inbound Addr) × CascadeNode Addr :=
  if src ∉ n.relay.allowedPeers then
    (.error (.authorizationDenied ("Cascade packet from unknown peer " ++ form.display src)), n)
  else
    match openEnvelope suite keys data with
    | .error e => (.error e, n)
    | .ok (counter, sender, hop, inner) =>
      match n.replayCheck form src counter with
      | (.error e, n) => (.error e, n)
      | (.ok _, n) => (classify form sender hop inner, n)

def authenticateHello (remote : Addr) : Except AurixError Addr × CascadeNode Addr :=
  match openEnvelope suite keys data with
  | .error e => (.error e, n)
  | .ok (counter, _, _, inner) =>
    match CascadeControl.fromPacket form inner with
    | .error e => (.error e, n)
    | .ok (some (.hello addr)) =>
      let addr := form.canonical addr
      if form.ip (form.canonical remote) ≠ form.ip addr then
        (.error (.authorizationDenied
          ("Cascade TCP Hello for " ++ form.display addr ++ " from " ++ form.display remote)), n)
      else
        match n.replayCheck form addr counter with
        | (.error e, n) => (.error e, n)
        | (.ok _, n) => (.ok addr, n)
    | .ok _ => (.error (.transport "Cascade TCP connection did not start with Hello"), n)

def handleUdpControl (src : Addr) : CascadeControl Addr → List (Addr × Bytes) × CascadeNode Addr
  | .ping nonce =>
    let (pong, n) := n.sealControl suite form keys (.pong nonce)
    ([(src, pong)], n)
  | .pong _ => ([], n)
  | .hello _ => ([], n)

def receive (src : Addr) : List (Addr × Bytes) × CascadeNode Addr :=
  if data.length < Protocol.headerSize then ([], n)
  else
    match n.authenticate suite form keys data src with
    | (.ok (.audio inbound), n) => n.forwardInbound suite keys src inbound
    | (.ok (.control control), n) => n.handleUdpControl suite form keys src control
    | (.error _, n) => ([], n)

end CascadeNode

end AurixVoice.Cascade
