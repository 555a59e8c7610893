import AurixVoice.Turn.Allocation

/-! The TURN handler behind the two listeners. What a call gets from outside, and the clock, is its `Env`. -/

namespace AurixVoice.Turn

open StunMessage (text)

def software : String := "Aurix TURN/1.0"
def nonceLifetimeSecs : ℤ := 3600
def defaultLifetimeSecs : UInt32 := 600
def maxLifetimeSecs : UInt32 := 3600
def maxAllocationsPerUser : ℕ := 16
def maxRelayPayload : ℕ := 1500

inductive ClientSink
  | udp (localIp : IpAddr)
  | tcp
  deriving DecidableEq

def ClientSink.proto : ClientSink → ClientProtocol
  | udp _ => .udp
  | tcp => .tcp

structure RelayFamily where
  bind : IpAddr
  external : Option IpAddr

structure RelayAddressing where
  v4 : Option RelayFamily
  v6 : Option RelayFamily

def RelayAddressing.family (r : RelayAddressing) (v6 : Bool) : Option RelayFamily := if v6 then r.v6 else r.v4

def IpAddr.isUnspecified : IpAddr → Bool
  | v4 octets => octets = Vector.replicate 4 0
  | v6 octets => octets = Vector.replicate 16 0

def IpAddr.isIpv6 : IpAddr → Bool
  | v4 _ => false
  | v6 _ => true

structure Authenticated where
  username : Bytes
  key : Bytes

inductive AuthFailure
  | unauthorized
  | staleNonce
  | badRequest
  deriving DecidableEq

structure RelayTask where
  client : ClientKey
  sink : ClientSink
  closed : Bool

structure TurnHandler where
  realm : Bytes
  authSecret : Bytes
  allocations : Dict ClientKey Allocation
  portsInUse : Finset UInt16
  minPort : UInt16
  maxPort : UInt16
  nextPort : UInt16
  maxAllocations : UInt32
  allocationLifetime : ℤ
  relay : RelayAddressing
  tasks : Dict UInt16 RelayTask

structure Env where
  now : ℤ
  canBind : UInt16 → Bool
  transactionId : Vector UInt8 12

inductive Output
  | toClient (client : ClientKey) (data : Bytes)
  | toPeer (client : ClientKey) (peer : SocketAddr) (payload : Bytes)
  deriving DecidableEq

def splitOnce (separator : UInt8) : Bytes → Option (Bytes × Bytes)
  | [] => none
  | b :: bytes =>
    if b = separator then some ([], bytes)
    else (splitOnce separator bytes).map fun parts => (b :: parts.1, parts.2)

def digitValue (b : UInt8) : Option ℕ :=
  if 48 ≤ b ∧ b ≤ 57 then some (b.toNat - 48)
  else if 97 ≤ b ∧ b ≤ 122 then some (b.toNat - 87)
  else if 65 ≤ b ∧ b ≤ 90 then some (b.toNat - 55)
  else none

def parseDigits (radix : ℕ) (value : ℕ) : Bytes → Option ℕ
  | [] => some value
  | b :: bytes =>
    match digitValue b with
    | none => none
    | some digit => if digit < radix then parseDigits radix (value * radix + digit) bytes else none

def parseI64 (radix : ℕ) (bytes : Bytes) : Option ℤ :=
  let (negative, digits) := match bytes with
    | 43 :: digits => (false, digits)
    | 45 :: digits => (true, digits)
    | digits => (false, digits)
  if digits = [] then none
  else (parseDigits radix 0 digits).bind fun n =>
    let value : ℤ := if negative then -(n : ℤ) else n
    if -2 ^ 63 ≤ value ∧ value < 2 ^ 63 then some value else none

def parseTurnUsername (username : Bytes) : Option (ℤ × Bytes) :=
  (splitOnce 58 username).bind fun parts => (parseI64 10 parts.1).map fun ts => (ts, parts.2)

def timestamp (now : ℤ) : ℤ := now / 1000000000

def hexI64 (n : ℤ) : Bytes := (Nat.toDigits 16 (n % 2 ^ 64).toNat).map fun c => c.toNat.toUInt8

def clamp (n lo hi : UInt32) : UInt32 := max lo (min n hi)

namespace TurnHandler

variable (suite : TurnSuite)

variable (h : TurnHandler) (env : Env)

variable (msg : StunMessage) (client : ClientKey) (auth : Authenticated) (now : ℤ)

def new (realm authSecret : Bytes) (minPort maxPort : UInt16) (maxAllocations : UInt32) (allocationLifetime : ℤ)
    (relay : RelayAddressing) : TurnHandler where
  realm := realm
  authSecret := authSecret
  allocations := .empty
  portsInUse := ∅
  minPort := minPort
  maxPort := maxPort
  nextPort := minPort
  maxAllocations := maxAllocations
  allocationLifetime := max 60 (min allocationLifetime 3600)
  relay := relay
  tasks := .empty

def setAllocation (a : Allocation) : TurnHandler :=
  { h with allocations := h.allocations.set client a }

def handleBindingRequest : List Output :=
  let response := ((StunMessage.new .bindingResponse msg.transactionId).addXorAddress .xorMappedAddress
    client.addr).addSoftware software
  [.toClient client (response.encode suite)]

def turnPasswordForUsername (secret username : Bytes) : Bytes :=
  suite.base64 (suite.hmacSha1 secret username).toList

def stunLongTermKey (username realm password : Bytes) : Bytes :=
  (suite.md5 (username ++ [58] ++ realm ++ [58] ++ password)).toList

def nonce (h : TurnHandler) (nowUnix : ℤ) : Bytes :=
  let bucket := nowUnix.tdiv nonceLifetimeSecs
  let tag := suite.hmac h.authSecret (text "turn-nonce" ++ toBe 8 (bucket % 2 ^ 64).toNat)
  hexI64 bucket ++ [46] ++ suite.base64Url (tag.toList.take 12)

def nonceIsValid (nonce : Bytes) (nowUnix : ℤ) : Bool :=
  match (splitOnce 46 nonce).bind fun parts => parseI64 16 parts.1 with
  | none => false
  | some bucket =>
    let current := nowUnix.tdiv nonceLifetimeSecs
    if bucket ≠ current ∧ bucket ≠ current - 1 then false
    else h.nonce suite (bucket * nonceLifetimeSecs) = nonce

def authenticate (msg : StunMessage) (raw : Bytes) : Except AuthFailure Authenticated :=
  if (msg.getAttribute .messageIntegrity).isNone then .error .unauthorized
  else match msg.getString .username, msg.getString .realm, msg.getString .nonce with
    | some username, some realm, some nonce =>
      if 512 < username.length ∨ realm ≠ h.realm then .error .unauthorized
      else if !h.nonceIsValid suite nonce (timestamp now) then .error .staleNonce
      else match parseTurnUsername username with
        | none => .error .unauthorized
        | some (expiry, user) =>
          if user.isEmpty ∨ expiry < timestamp now then .error .unauthorized
          else
            let password := turnPasswordForUsername suite h.authSecret username
            let key := stunLongTermKey suite username h.realm password
            if StunMessage.verifyIntegrity suite raw key then .ok ⟨username, key⟩ else .error .unauthorized
    | _, _, _ => .error .badRequest

def authErrorMessage (msg : StunMessage) (failure : AuthFailure) : StunMessage :=
  let err := StunMessage.new msg.msgType.errorResponse msg.transactionId
  let challenge (err : StunMessage) : StunMessage :=
    (err.addAttribute .realm h.realm).addAttribute .nonce (h.nonce suite (timestamp now))
  match failure with
  | .unauthorized => challenge (err.addErrorCode 401 "Unauthorized")
  | .staleNonce => challenge (err.addErrorCode 438 "Stale Nonce")
  | .badRequest => err.addErrorCode 400 "Bad Request"

def sendAuthError (msg : StunMessage) (client : ClientKey) (failure : AuthFailure) : List Output :=
  [.toClient client (((h.authErrorMessage suite now msg failure).addSoftware software).encode suite)]

def sendError (key : Bytes) (code : ℕ) (reason : String) : List Output :=
  let err := ((StunMessage.new msg.msgType.errorResponse msg.transactionId).addErrorCode code reason).addSoftware
    software
  [.toClient client (err.encodeWithIntegrity suite key)]

def bindRelaySocket (canBind : UInt16 → Bool) : ℕ → TurnHandler → Option UInt16 × TurnHandler
  | 0, h => (none, h)
  | n + 1, h =>
    let p := h.nextPort
    let (p, h) :=
      if h.maxPort < p ∨ p < h.minPort then (h.minPort, { h with nextPort := h.minPort + 1 })
      else (p, { h with nextPort := p + 1 })
    if p ∈ h.portsInUse then bindRelaySocket canBind n h
    else if canBind p then (some p, { h with portsInUse := insert p h.portsInUse })
    else bindRelaySocket canBind n h

def relayIp (family : RelayFamily) (v6 : Bool) (sink : ClientSink) : IpAddr :=
  match family.external with
  | some ip => ip
  | none =>
    if !family.bind.isUnspecified then family.bind
    else match sink with
      | .udp localIp => if !localIp.isUnspecified && localIp.isIpv6 = v6 then localIp else family.bind
      | .tcp => family.bind

def checkAllocate (msg : StunMessage) (client : ClientKey) : Except (ℕ × String) (RelayFamily × Bool) :=
  if (h.allocations.find client).isSome then .error (437, "Allocation Mismatch")
  else match (msg.getAttribute .requestedTransport).map fun a => a.value.head? with
    | none => .error (400, "Bad Request")
    | some protocol =>
      if protocol ≠ some 17 then .error (442, "Unsupported Transport Protocol")
      else if (msg.getAttribute .reservationToken).isSome ∨ (msg.getAttribute .evenPort).isSome then
        .error (508, "Insufficient Capacity")
      else
        let family := ((msg.getAttribute .requestedAddressFamily).bind fun a => a.value.head?).getD 1
        if family ≠ 1 ∧ family ≠ 2 then .error (440, "Address Family not Supported")
        else match h.relay.family (family = 2) with
          | none => .error (440, "Address Family not Supported")
          | some relayFamily =>
            if h.maxAllocations ≤ UInt32.ofNat h.allocations.keys.card then .error (508, "Insufficient Capacity")
            else
              let perUser := h.allocations.keys.filter fun k =>
                (h.allocations.find k).any fun a => a.username = auth.username
              if maxAllocationsPerUser ≤ perUser.card then .error (486, "Allocation Quota Reached")
              else .ok (relayFamily, family = 2)

def lifetimeSecs : UInt32 := UInt32.ofNat h.allocationLifetime.toNat

def shortestLifetime : UInt32 := min defaultLifetimeSecs h.lifetimeSecs

def handleAllocateRequest (sink : ClientSink) (raw : Bytes) : TurnHandler × List Output :=
  match h.authenticate suite env.now msg raw with
  | .error f => (h, h.sendAuthError suite env.now msg client f)
  | .ok auth =>
    match h.checkAllocate auth msg client with
    | .error (code, reason) => (h, sendError suite msg client auth.key code reason)
    | .ok (family, v6) =>
      let requested := (msg.getU32 .lifetime).getD h.lifetimeSecs
      let lifetime := max (clamp requested h.shortestLifetime maxLifetimeSecs) 1
      let span := (h.maxPort - h.minPort).toNat + 1
      match bindRelaySocket env.canBind (min span 256) h with
      | (none, h) => (h, sendError suite msg client auth.key 508 "Insufficient Capacity")
      | (some port, h) =>
        let relayAddr := SocketAddr.new (relayIp family v6 sink) port
        let a := Allocation.new client relayAddr auth.username h.realm lifetime.toNat env.now
        let response := ((((StunMessage.new .allocateResponse msg.transactionId).addXorAddress .xorRelayedAddress
          relayAddr).addAttribute .lifetime (putU32 lifetime)).addXorAddress .xorMappedAddress client.addr).addSoftware
          software
        ({ h.setAllocation client a with tasks := h.tasks.set port ⟨client, sink, false⟩ },
          [.toClient client (response.encodeWithIntegrity suite auth.key)])

def removeAllocation : TurnHandler :=
  match h.allocations.find client with
  | none => h
  | some a =>
    let tasks := match h.tasks.find a.relayAddr.port with
      | none => h.tasks
      | some task =>
        if task.client = client then h.tasks.set a.relayAddr.port { task with closed := true } else h.tasks
    { h with allocations := h.allocations.erase client, tasks := tasks }

def ownAllocation (client : ClientKey) : Except (ℕ × String) Allocation :=
  match h.allocations.find client with
  | none => .error (437, "Allocation Mismatch")
  | some a => if a.username ≠ auth.username then .error (441, "Wrong Credentials") else .ok a

def refreshLifetime : UInt32 :=
  match msg.getU32 .lifetime with
  | some l => if l = 0 then 0 else clamp l h.shortestLifetime maxLifetimeSecs
  | none => h.lifetimeSecs

def handleRefreshRequest (raw : Bytes) : TurnHandler × List Output :=
  match h.authenticate suite env.now msg raw with
  | .error f => (h, h.sendAuthError suite env.now msg client f)
  | .ok auth =>
    let lifetime := h.refreshLifetime msg
    match h.ownAllocation auth client with
    | .error (code, reason) => (h, sendError suite msg client auth.key code reason)
    | .ok a =>
      let resp := ((StunMessage.new .refreshResponse msg.transactionId).addAttribute .lifetime
        (putU32 lifetime)).addSoftware software
      (if lifetime = 0 then h.removeAllocation client
        else h.setAllocation client (a.refresh lifetime.toNat env.now),
        [.toClient client (resp.encodeWithIntegrity suite auth.key)])

def confirm (msgType : StunMessageType) : List Output :=
  [.toClient client (((StunMessage.new msgType msg.transactionId).addSoftware software).encodeWithIntegrity suite
    auth.key)]

def handleCreatePermission (raw : Bytes) : TurnHandler × List Output :=
  match h.authenticate suite env.now msg raw with
  | .error f => (h, h.sendAuthError suite env.now msg client f)
  | .ok auth =>
    let peers := msg.getAllXorAddresses .xorPeerAddress
    if peers.isEmpty then (h, sendError suite msg client auth.key 400 "Bad Request")
    else match h.ownAllocation auth client with
      | .error (code, reason) => (h, sendError suite msg client auth.key code reason)
      | .ok a =>
        if peers.any fun p => p.isIpv4 ≠ a.relayAddr.isIpv4 then
          (h, sendError suite msg client auth.key 443 "Peer Address Family Mismatch")
        else match a.addPermissions env.now peers with
          | (true, a) => (h.setAllocation client a, confirm suite msg client auth .createPermissionResponse)
          | (false, a) => (h.setAllocation client a, sendError suite msg client auth.key 508 "Insufficient Capacity")

def isChannelNumber (number : UInt16) : Bool := 0x4000 ≤ number && number ≤ 0x4FFF

def handleChannelBind (raw : Bytes) : TurnHandler × List Output :=
  match h.authenticate suite env.now msg raw with
  | .error f => (h, h.sendAuthError suite env.now msg client f)
  | .ok auth =>
    let number := (msg.getAttribute .channelNumber).bind fun a =>
      if a.value.length < 2 then none else some (getU16 a.value).1
    match number, msg.getXorAddress .xorPeerAddress with
    | some number, some peer =>
      if !isChannelNumber number then (h, sendError suite msg client auth.key 400 "Bad Request")
      else match h.ownAllocation auth client with
        | .error (code, reason) => (h, sendError suite msg client auth.key code reason)
        | .ok a =>
          if peer.isIpv4 ≠ a.relayAddr.isIpv4 then
            (h, sendError suite msg client auth.key 443 "Peer Address Family Mismatch")
          else match a.addChannelBinding number peer env.now with
            | (.ok _, a) => (h.setAllocation client a, confirm suite msg client auth .channelBindResponse)
            | (.error _, a) => (h.setAllocation client a, sendError suite msg client auth.key 400 "Bad Request")
    | _, _ => (h, sendError suite msg client auth.key 400 "Bad Request")

def handleSendIndication : TurnHandler × List Output :=
  match msg.getXorAddress .xorPeerAddress, msg.getAttribute .data with
  | some peer, some data =>
    if maxRelayPayload < data.value.length then (h, [])
    else match h.allocations.find client with
      | none => (h, [])
      | some a =>
        if a.isExpired env.now || !a.hasPermission peer.ip env.now then (h, [])
        else (h.setAllocation client (a.relayedOut data.value.length), [.toPeer client peer data.value])
  | _, _ => (h, [])

def handleStunMessage (src : SocketAddr) (sink : ClientSink) (raw : Bytes) : TurnHandler × List Output :=
  if !StunMessage.verifyFingerprint suite raw then (h, [])
  else
    let client : ClientKey := ⟨src, sink.proto⟩
    match msg.msgType with
    | .bindingRequest => (h, handleBindingRequest suite msg client)
    | .allocateRequest => h.handleAllocateRequest suite env msg client sink raw
    | .refreshRequest => h.handleRefreshRequest suite env msg client raw
    | .createPermissionRequest => h.handleCreatePermission suite env msg client raw
    | .channelBindRequest => h.handleChannelBind suite env msg client raw
    | .sendIndication => h.handleSendIndication env msg client
    | _ => (h, [])

def handleChannelData (data : Bytes) (client : ClientKey) : TurnHandler × List Output :=
  if data.length < 4 then (h, [])
  else
    let number := (getU16 data).1
    let len := (getU16 (data.drop 2)).1.toNat
    if data.length < 4 + len ∨ !isChannelNumber number then (h, [])
    else match h.allocations.find client with
      | none => (h, [])
      | some a =>
        match a.getChannelBinding number env.now with
        | none => (h, [])
        | some binding =>
          (h.setAllocation client (a.relayedOut len), [.toPeer client binding.peerAddr ((data.drop 4).take len)])

def taskEnds (port : UInt16) : TurnHandler :=
  match h.tasks.find port with
  | none => h
  | some _ => { h with tasks := h.tasks.erase port, portsInUse := h.portsInUse.erase port }

def relayFrame (a : Allocation) (peer : SocketAddr) (data : Bytes) : Bytes :=
  match a.getChannelForPeer peer env.now with
  | some channel =>
    putU16 channel ++ putU16 (UInt16.ofNat data.length) ++ data ++
      (if client.proto = .tcp then List.replicate (padding data.length) 0 else [])
  | none =>
    let ind := ((StunMessage.new .dataIndication env.transactionId).addXorAddress .xorPeerAddress peer).addAttribute
      .data data
    ind.encode suite

def handlePeerDatagram (port : UInt16) (peer : SocketAddr) (data : Bytes) : TurnHandler × List Output :=
  match h.tasks.find port with
  | none => (h, [])
  | some task =>
    if maxRelayPayload < data.length then (h, [])
    else match h.allocations.find task.client with
      | none => (h.taskEnds port, [])
      | some a =>
        if a.isExpired env.now || !a.hasPermission peer.ip env.now then (h, [])
        else (h.setAllocation task.client (a.relayedIn data.length),
          [.toClient task.client (relayFrame suite env task.client a peer data)])

def cleanupExpired : TurnHandler :=
  let notified (port : UInt16) (task : RelayTask) : Bool :=
    (h.allocations.find task.client).any fun a => a.isExpired now && a.relayAddr.port = port
  { h with
    allocations := h.allocations.filterValues fun a => !a.isExpired now
    tasks := .tabulate h.tasks.keys fun port =>
      (h.tasks.find port).map fun task => { task with closed := task.closed || notified port task } }

inductive Event
  | datagram (src : SocketAddr) (localIp : IpAddr) (data : Bytes)
  | tcpFrame (src : SocketAddr) (frame : Bytes)
  | tcpClosed (src : SocketAddr)
  | peerDatagram (port : UInt16) (peer : SocketAddr) (data : Bytes)
  | taskEnds (port : UInt16)
  | cleanup

def isChannelData (data : Bytes) : Bool := data.getD 0 0 &&& 0xC0 = 0x40

/-- `serve_udp` and the TCP loop hand a client's bytes on, `remove_client` follows a closed
connection, and the rest are the background tasks. -/
def step : Event → TurnHandler × List Output
  | .datagram src localIp data =>
    if 4 ≤ data.length ∧ isChannelData data then h.handleChannelData env data ⟨src, .udp⟩
    else if !StunMessage.isStun data then (h, [])
    else match StunMessage.decode data with
      | .error _ => (h, [])
      | .ok msg => h.handleStunMessage suite env msg src (.udp localIp) data
  | .tcpFrame src frame =>
    if isChannelData frame then h.handleChannelData env frame ⟨src, .tcp⟩
    else match StunMessage.decode frame with
      | .error _ => (h, [])
      | .ok msg => h.handleStunMessage suite env msg src .tcp frame
  | .tcpClosed src => (h.removeAllocation ⟨src, .tcp⟩, [])
  | .peerDatagram port peer data => h.handlePeerDatagram suite env port peer data
  | .taskEnds port => (h.taskEnds port, [])
  | .cleanup => (h.cleanupExpired env.now, [])

end TurnHandler

end AurixVoice.Turn
