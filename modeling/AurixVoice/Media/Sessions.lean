import AurixVoice.Library.Dict
import AurixVoice.Protocol.RelayEnvelope
import AurixVoice.Protocol.ReplayWindow

/-! The sessions of a media node: their media paths, and the events that create, move and end them. -/

namespace AurixVoice

namespace Protocol

def sessionBindPayloadSize : ℕ := 32
def sessionBindMaxSkewMs : Int64 := 30000

def AurixPacket.parseSessionBind (p : AurixPacket) : Except AurixError (SessionId × Int64 × UInt64) :=
  if p.header.packetType ≠ .sessionBind then .error (.transport "Not a SessionBind packet")
  else if p.payload.length ≠ sessionBindPayloadSize then
    .error (.transport "Invalid SessionBind payload length")
  else
    let unixMs := getU64 (p.payload.drop 16)
    .ok (Uuid.fromSlice (p.payload.take 16), unixMs.1.toInt64, (getU64 unixMs.2).1)

end Protocol

namespace Media

open Protocol

inductive LinkKind
  | quic
  | tls
  | webTransport
  deriving DecidableEq

def LinkKind.connection : LinkKind → String
  | quic => "QUIC connection"
  | tls => "TLS tunnel connection"
  | webTransport => "WebTransport session"

def LinkKind.session : LinkKind → String
  | quic => "QUIC session"
  | tls => "TLS tunnel session"
  | webTransport => "WebTransport session"

structure Link where
  kind : LinkKind
  id : ℕ
  deriving DecidableEq

structure MediaTunnel where
  id : ℕ
  sessionId : SessionId
  deriving DecidableEq

inductive PacketSource (Addr : Type)
  | udp (addr : Addr)
  | tunnel (tunnel : MediaTunnel)
  | link (link : Link)

inductive MediaEndpoint (Addr : Type)
  | udp (addr : Addr)
  | tunnel (tunnel : MediaTunnel)
  | link (link : Link)

structure MediaSession (Addr : Type) where
  userId : UserId
  ssrc : UInt32
  keys : MediaKeys
  endpoint : Option (MediaEndpoint Addr)
  replay : ReplayWindow
  lastBindMs : Int64

variable (suite : Suite) {Addr : Type} [DecidableEq Addr]

namespace MediaSession

def new (userId : UserId) (ssrc : UInt32) (mediaKey : Vector UInt8 32) : MediaSession Addr :=
  ⟨userId, ssrc, .derive suite mediaKey.toList, none, default, Int64.minValue⟩

def releaseDisplaced : Option (MediaEndpoint Addr) → Option Addr
  | some (.udp addr) => some addr
  | some (.link _) => none
  | some (.tunnel _) => none
  | none => none

variable (s : MediaSession Addr)

def replaceEndpoint (next : Option (MediaEndpoint Addr)) : Option (MediaEndpoint Addr) × MediaSession Addr :=
  (s.endpoint, { s with endpoint := next })

def setRemoteAddr (addr : Addr) : Option Addr × MediaSession Addr :=
  let (displaced, s) := s.replaceEndpoint (some (.udp addr))
  (releaseDisplaced displaced, s)

def setTunnel (tunnel : MediaTunnel) : Option Addr × MediaSession Addr :=
  let (displaced, s) := s.replaceEndpoint (some (.tunnel tunnel))
  (releaseDisplaced displaced, s)

def link : Option Link :=
  match s.endpoint with
  | some (.link l) => some l
  | _ => none

def tunnel : Option MediaTunnel :=
  match s.endpoint with
  | some (.tunnel t) => some t
  | _ => none

def getRemoteAddr : Option Addr :=
  match s.endpoint with
  | some (.udp addr) => some addr
  | _ => none

variable {s}

omit [DecidableEq Addr] in
lemma endpoint_of_link {l : Link} (h : s.link = some l) : s.endpoint = some (.link l) := by
  unfold link at h
  split at h
  next hend => rw [hend, Option.some.inj h]
  · cases h

omit [DecidableEq Addr] in
lemma endpoint_of_tunnel {t : MediaTunnel} (h : s.tunnel = some t) : s.endpoint = some (.tunnel t) := by
  unfold tunnel at h
  split at h
  next hend => rw [hend, Option.some.inj h]
  · cases h

omit [DecidableEq Addr] in
lemma endpoint_of_getRemoteAddr {addr : Addr} (h : s.getRemoteAddr = some addr) : s.endpoint = some (.udp addr) := by
  unfold getRemoteAddr at h
  split at h
  next hend => rw [hend, Option.some.inj h]
  · cases h

variable (s)

def setLink (link : Link) : Option Addr × MediaSession Addr :=
  if s.link = some link then (none, s)
  else
    let (displaced, s) := s.replaceEndpoint (some (.link link))
    (releaseDisplaced displaced, s)

def clearEndpoint : Option Addr × MediaSession Addr :=
  let (displaced, s) := s.replaceEndpoint none
  (releaseDisplaced displaced, s)

def clearTunnel (tunnel : MediaTunnel) : MediaSession Addr :=
  if s.tunnel.map MediaTunnel.id = some tunnel.id then { s with endpoint := none } else s

def clearLink (link : Link) : MediaSession Addr :=
  if s.link = some link then { s with endpoint := none } else s

def acceptSequence (seq : UInt32) : Bool × MediaSession Addr :=
  let (fresh, replay) := s.replay.checkAndUpdate seq
  (fresh, { s with replay := replay })

end MediaSession

structure MediaNode (Addr : Type) where
  requirePacketAuth : Bool
  sessionsById : Dict SessionId (MediaSession Addr)
  sessionsByUser : Dict UserId SessionId
  sessionsByAddr : Dict Addr SessionId
  owners : Dict Link SessionId

namespace MediaNode

def init (requirePacketAuth : Bool) : MediaNode Addr := ⟨requirePacketAuth, .empty, .empty, .empty, .empty⟩

variable (n : MediaNode Addr)

def put (id : SessionId) (s : MediaSession Addr) : MediaNode Addr :=
  { n with sessionsById := n.sessionsById.set id s }

def unregister : Option Addr → MediaNode Addr
  | some old => { n with sessionsByAddr := n.sessionsByAddr.erase old }
  | none => n

def bindAddr (id : SessionId) (s : MediaSession Addr) (addr : Addr) : MediaNode Addr :=
  let (old, s) := s.setRemoteAddr addr
  let n := (n.put id s).unregister (old.filter (· ≠ addr))
  { n with sessionsByAddr := n.sessionsByAddr.set addr id }

def claim (link : Link) (session : SessionId) : Bool × MediaNode Addr :=
  match n.owners.find link with
  | none => (true, { n with owners := n.owners.set link session })
  | some current => (current = session, n)

def handleSessionBind (packet : AurixPacket) (source : PacketSource Addr) (now : Int64) :
    Except AurixError (SessionId × Int64) × MediaNode Addr :=
  if packet.header.hasFlag .encrypted then
    (.error (.authenticationFailed "SessionBind must be signed, not encrypted"), n)
  else
    match packet.parseSessionBind with
    | .error e => (.error e, n)
    | .ok (sessionId, unixMs, _nonce) =>
      let owner := match source with
        | .udp _ => none
        | .tunnel t => some t.sessionId
        | .link l => n.owners.find l
      if owner.any (· ≠ sessionId) then
        (.error (.authenticationFailed "SessionBind for a session the connection does not own"), n)
      else
        match n.sessionsById.find sessionId with
        | none => (.error (.sessionNotFound "Unknown session in SessionBind"), n)
        | some session =>
          if !packet.isAuthenticated || !packet.verifyAuth suite session.keys then
            (.error (.authenticationFailed "SessionBind authentication failed"), n)
          else if packet.header.ssrc ≠ session.ssrc then
            (.error (.authenticationFailed "SessionBind SSRC mismatch"), n)
          else if sessionBindMaxSkewMs < (now - unixMs).abs then
            (.error (.authenticationFailed "SessionBind timestamp outside allowed skew"), n)
          else if unixMs ≤ session.lastBindMs then
            (.error (.authenticationFailed "Replayed SessionBind"), n)
          else
            let session := { session with lastBindMs := unixMs }
            match source with
            | .udp addr => (.ok (sessionId, unixMs), n.bindAddr sessionId session addr)
            | .tunnel t =>
              let (old, session) := session.setTunnel t
              (.ok (sessionId, unixMs), (n.put sessionId session).unregister old)
            | .link l =>
              let (claimed, n) := n.claim l sessionId
              if !claimed then
                (.error (.authenticationFailed (l.kind.connection ++ " already owned by another session")),
                  n.put sessionId session)
              else
                let (old, session) := session.setLink l
                (.ok (sessionId, unixMs), (n.put sessionId session).unregister old)

def resolve : PacketSource Addr → Except AurixError (SessionId × MediaSession Addr)
  | .udp addr =>
    match n.sessionsByAddr.find addr with
    | none => .error (.authenticationFailed "Unbound media source")
    | some id =>
      -- a session that left `sessions_by_id` was deactivated
      match n.sessionsById.find id with
      | none => .error (.sessionNotFound "Session inactive")
      | some session => .ok (id, session)
  | .tunnel t =>
    match n.sessionsById.find t.sessionId with
    | none => .error (.sessionNotFound "Tunnel session is gone")
    | some session =>
      if session.tunnel.map MediaTunnel.id ≠ some t.id then
        .error (.authenticationFailed "Unbound media tunnel")
      else .ok (t.sessionId, session)
  | .link l =>
    match n.owners.find l with
    | none => .error (.authenticationFailed ("Unbound " ++ l.kind.connection))
    | some id =>
      match n.sessionsById.find id with
      | none => .error (.sessionNotFound (l.kind.session ++ " is gone"))
      | some session =>
        if session.link ≠ some l then .error (.authenticationFailed ("Stale " ++ l.kind.connection))
        else .ok (id, session)

def authenticate (packet : AurixPacket) (source : PacketSource Addr) :
    Except AurixError (SessionId × AurixPacket) × MediaNode Addr :=
  match n.resolve source with
  | .error e => (.error e, n)
  | .ok (id, session) =>
    if packet.header.ssrc ≠ session.ssrc then
      (.error (.authenticationFailed "SSRC does not match session"), n)
    else if packet.isAuthenticated then
      if n.requirePacketAuth && !packet.header.hasFlag .encrypted then
        (.error (.authenticationFailed "Encrypted payload required"), n)
      else
        let (verified, opened) := packet.openPacket suite session.keys
        if !verified then (.error (.authenticationFailed "Invalid packet authentication tag"), n)
        else
          let (fresh, session) := session.acceptSequence opened.header.sequence
          if !fresh then (.error (.authenticationFailed "Replayed packet"), n)
          else (.ok (id, opened), n.put id session)
    else if n.requirePacketAuth || packet.header.hasFlag .encrypted then
      (.error (.authenticationFailed "Packet authentication required"), n)
    else (.ok (id, packet), n)

inductive Routed
  | bound (session : SessionId) (unixMs : Int64)
  | passedOn (session : SessionId) (packet : AurixPacket)
  deriving DecidableEq

def routeFrom (data : Bytes) (source : PacketSource Addr) (now : Int64) : Except AurixError Routed × MediaNode Addr :=
  match AurixPacket.decode suite data with
  | .error e => (.error e, n)
  | .ok packet =>
    if packet.header.packetType = .sessionBind then
      match n.handleSessionBind suite packet source now with
      | (.error e, n) => (.error e, n)
      | (.ok (session, unixMs), n) => (.ok (.bound session unixMs), n)
    else
      match n.authenticate suite packet source with
      | (.error e, n) => (.error e, n)
      | (.ok (session, packet), n) => (.ok (.passedOn session packet), n)

def teardownSession (id : SessionId) : MediaNode Addr :=
  match n.sessionsById.find id with
  | none => n
  | some session =>
    ({ n with sessionsById := n.sessionsById.erase id } : MediaNode Addr).unregister session.clearEndpoint.1

def replaceUser (user : UserId) : MediaNode Addr :=
  match n.sessionsByUser.find user with
  | none => n
  | some old => ({ n with sessionsByUser := n.sessionsByUser.erase user } : MediaNode Addr).teardownSession old

/-- The caller draws `id` at random: one that is in use is never drawn. `room` is false when the node
is at capacity. -/
def createSession (id : SessionId) (user : UserId) (ssrc : UInt32)
    (mediaKey : Vector UInt8 32) (room : Bool) : MediaNode Addr :=
  let n := n.replaceUser user
  if !room || (n.sessionsById.find id).isSome then n
  else
    { n.put id (.new suite user ssrc mediaKey) with
      sessionsByUser := n.sessionsByUser.set user id }

def adoptSession (id : SessionId) (user : UserId) (ssrc : UInt32)
    (mediaKey : Vector UInt8 32) (room : Bool) : MediaNode Addr :=
  if (n.sessionsById.find id).isSome then n else n.createSession suite id user ssrc mediaKey room

/-- `destroy_session`, and what the cleanup task does to a session whose heartbeats stopped. -/
def destroySession (id : SessionId) : MediaNode Addr :=
  match n.sessionsById.find id with
  | none => n
  | some session =>
    let byUser :=
      if n.sessionsByUser.find session.userId = some id then n.sessionsByUser.erase session.userId
      else n.sessionsByUser
    ({ n with sessionsByUser := byUser } : MediaNode Addr).teardownSession id

def closeTunnel (tunnel : MediaTunnel) : MediaNode Addr :=
  match n.sessionsById.find tunnel.sessionId with
  | none => n
  | some session => n.put tunnel.sessionId (session.clearTunnel tunnel)

def linkClosed (link : Link) : MediaNode Addr :=
  match n.owners.find link with
  | none => n
  | some id =>
    match n.sessionsById.find id with
    | none => n
    | some session => n.put id (session.clearLink link)

def dropEndpoint (id : SessionId) : MediaNode Addr :=
  match n.sessionsById.find id with
  | none => n
  | some session =>
    let (old, session) := session.clearEndpoint
    (n.put id session).unregister old

def webrtcConnected (id : SessionId) (remote : Addr) : MediaNode Addr :=
  match n.sessionsById.find id with
  | none => n
  | some session => n.bindAddr id session remote

inductive Event (Addr : Type)
  | datagram (data : Bytes) (source : PacketSource Addr) (now : Int64)
  | createSession (id : SessionId) (user : UserId) (ssrc : UInt32) (mediaKey : Vector UInt8 32) (room : Bool)
  | adoptSession (id : SessionId) (user : UserId) (ssrc : UInt32) (mediaKey : Vector UInt8 32) (room : Bool)
  | destroySession (id : SessionId)
  | timeout (id : SessionId)
  | closeTunnel (tunnel : MediaTunnel)
  | linkClosed (link : Link)
  | attachWebrtc (id : SessionId)
  | webrtcConnected (id : SessionId) (remote : Addr)
  | webrtcDisconnected (id : SessionId)

def step : Event Addr → MediaNode Addr
  | .datagram data source now => (n.routeFrom suite data source now).2
  | .createSession id user ssrc mediaKey room => n.createSession suite id user ssrc mediaKey room
  | .adoptSession id user ssrc mediaKey room => n.adoptSession suite id user ssrc mediaKey room
  | .destroySession id => n.destroySession id
  | .timeout id => n.destroySession id
  | .closeTunnel tunnel => n.closeTunnel tunnel
  | .linkClosed link => n.linkClosed link
  | .attachWebrtc id => n.dropEndpoint id
  | .webrtcConnected id remote => n.webrtcConnected id remote
  | .webrtcDisconnected id => n.dropEndpoint id

def moved (id : SessionId) (session : MediaSession Addr) : PacketSource Addr → MediaNode Addr
  | .udp addr => n.bindAddr id session addr
  | .tunnel t => (n.put id (session.setTunnel t).2).unregister (session.setTunnel t).1
  | .link l => ((n.claim l id).2.put id (session.setLink l).2).unregister (session.setLink l).1

structure AcceptsBind (n : MediaNode Addr) (packet : AurixPacket) (id : SessionId) (unixMs : Int64)
    (session : MediaSession Addr) : Prop where
  parsed : ∃ nonce, packet.parseSessionBind = .ok (id, unixMs, nonce)
  found : n.sessionsById.find id = some session
  verified : packet.verifyAuth suite session.keys = true
  newer : session.lastBindMs < unixMs

variable {id : SessionId}

omit [DecidableEq Addr] in
lemma claim_of_owner {n : MediaNode Addr} {link : Link}
    (h : (n.owners.find link).any (· ≠ id) = false) : (n.claim link id).1 = true := by
  unfold claim
  split
  · rfl
  next current howner =>
    rw [howner] at h
    simpa using h

def BindResult (packet : AurixPacket) (source : PacketSource Addr) :
    Except AurixError (SessionId × Int64) × MediaNode Addr → Prop
  | (.error _, n') => n' = n
  | (.ok (id, unixMs), n') => ∃ session, AcceptsBind suite n packet id unixMs session ∧
      n' = n.moved id { session with lastBindMs := unixMs } source

lemma handleSessionBind_spec (packet : AurixPacket) (source : PacketSource Addr)
    (now : Int64) : BindResult suite n packet source (n.handleSessionBind suite packet source now) := by
  unfold handleSessionBind
  split
  · rfl
  split
  · rfl
  rename_i id unixMs nonce hparsed
  dsimp only
  generalize howner : (match source with
    | .udp _ => none
    | .tunnel t => some t.sessionId
    | .link l => n.owners.find l : Option SessionId) = owner
  split
  · rfl
  rename_i hmine
  split
  · rfl
  rename_i session hfound
  split
  · rfl
  rename_i hauth
  split
  · rfl
  split
  · rfl
  split
  · rfl
  rename_i hnewer
  have haccepts : AcceptsBind suite n packet id unixMs session := by
    refine ⟨⟨nonce, hparsed⟩, hfound, ?_, Int64.not_le.mp hnewer⟩
    simp only [Bool.or_eq_true, Bool.not_eq_true', not_or, Bool.not_eq_false] at hauth
    exact hauth.2
  cases source with
  | udp | tunnel => exact ⟨session, haccepts, rfl⟩
  | link l =>
    have hclaim : (n.claim l id).1 = true := by
      apply claim_of_owner
      dsimp only at howner
      rw [howner]
      simpa using hmine
    dsimp only
    rw [hclaim]
    exact ⟨session, haccepts, rfl⟩

def Claims (id : SessionId) (session : MediaSession Addr) : PacketSource Addr → Prop
  | .udp addr => n.sessionsByAddr.find addr = some id
  | .tunnel t => id = t.sessionId ∧ session.tunnel.map MediaTunnel.id = some t.id
  | .link l => n.owners.find l = some id ∧ session.link = some l

omit [DecidableEq Addr] in
lemma resolve_ok {n : MediaNode Addr} {source : PacketSource Addr}
    {session : MediaSession Addr} (h : n.resolve source = .ok (id, session)) :
    n.sessionsById.find id = some session ∧ n.Claims id session source := by
  cases source with
  | udp addr =>
    simp only [resolve] at h
    split at h
    · cases h
    rename_i hindex
    split at h
    · cases h
    rename_i hfound
    cases h
    exact ⟨hfound, hindex⟩
  | tunnel t =>
    simp only [resolve] at h
    split at h
    · cases h
    rename_i hfound
    split at h
    · cases h
    rename_i htunnel
    cases h
    exact ⟨hfound, rfl, not_not.mp htunnel⟩
  | link l =>
    simp only [resolve] at h
    split at h
    · cases h
    rename_i howner
    split at h
    · cases h
    rename_i hfound
    split at h
    · cases h
    rename_i hlink
    cases h
    exact ⟨hfound, howner, not_not.mp hlink⟩

def PassResult (packet : AurixPacket) (source : PacketSource Addr) :
    Except AurixError (SessionId × AurixPacket) × MediaNode Addr → Prop
  | (.error _, n') => n' = n
  | (.ok (id, opened), n') => ∃ session, n.resolve source = .ok (id, session) ∧
      ((packet.openPacket suite session.keys = (true, opened) ∧
          (session.acceptSequence opened.header.sequence).1 = true ∧
          n' = n.put id (session.acceptSequence opened.header.sequence).2) ∨
        (n.requirePacketAuth = false ∧ n' = n))

omit [DecidableEq Addr] in
lemma authenticate_spec (packet : AurixPacket)
    (source : PacketSource Addr) : PassResult suite n packet source (n.authenticate suite packet source) := by
  unfold authenticate
  split
  · rfl
  rename_i id session hresolve
  split
  · rfl
  split
  · split
    · rfl
    dsimp only
    split
    · rfl
    rename_i hverified
    split
    · rfl
    rename_i hfresh
    refine ⟨session, hresolve, .inl ⟨?_, ?_, rfl⟩⟩
    · exact Prod.ext (by simpa using hverified) rfl
    · simpa using hfresh
  · split
    · rfl
    rename_i hplain
    simp only [Bool.or_eq_true, not_or, Bool.not_eq_true] at hplain
    exact ⟨session, hresolve, .inr ⟨hplain.1, rfl⟩⟩

variable {n : MediaNode Addr} {source : PacketSource Addr} {data : Bytes} {now : Int64}

lemma routeFrom_error {e : AurixError} (h : (n.routeFrom suite data source now).1 = .error e) :
    (n.routeFrom suite data source now).2 = n := by
  revert h
  unfold routeFrom
  split
  · exact fun _ => rfl
  rename_i packet _
  split
  · have hspec := handleSessionBind_spec suite n packet source now
    split
    next heq =>
      rw [heq] at hspec
      exact fun _ => hspec
    · exact fun h => nomatch h
  · have hspec := authenticate_spec suite n packet source
    split
    next heq =>
      rw [heq] at hspec
      exact fun _ => hspec
    · exact fun h => nomatch h

lemma routeFrom_bound {unixMs : Int64} (h : (n.routeFrom suite data source now).1 = .ok (.bound id unixMs)) :
    ∃ packet session, AurixPacket.decode suite data = .ok packet ∧
      AcceptsBind suite n packet id unixMs session ∧
      (n.routeFrom suite data source now).2 = n.moved id { session with lastBindMs := unixMs } source := by
  revert h
  unfold routeFrom
  split
  · exact fun h => nomatch h
  rename_i packet hdecode
  split
  · have hspec := handleSessionBind_spec suite n packet source now
    split
    · exact fun h => nomatch h
    next heq =>
      rw [heq] at hspec
      intro h
      cases h
      obtain ⟨session, haccepts, hmoved⟩ := hspec
      exact ⟨packet, session, hdecode, haccepts, hmoved⟩
  · split <;> exact fun h => nomatch h

lemma routeFrom_passedOn {opened : AurixPacket}
    (h : (n.routeFrom suite data source now).1 = .ok (.passedOn id opened)) :
    ∃ packet, AurixPacket.decode suite data = .ok packet ∧
      PassResult suite n packet source (.ok (id, opened), (n.routeFrom suite data source now).2) := by
  revert h
  unfold routeFrom
  split
  · exact fun h => nomatch h
  rename_i packet hdecode
  split
  · split <;> exact fun h => nomatch h
  · have hspec := authenticate_spec suite n packet source
    split
    · exact fun h => nomatch h
    next heq =>
      rw [heq] at hspec
      intro h
      cases h
      exact ⟨packet, hdecode, hspec⟩

end MediaNode

end Media

end AurixVoice
