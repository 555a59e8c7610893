import AurixVoice.Library.AddressIndex
import AurixVoice.Media.Sessions

namespace AurixVoice.Media.MediaNode

open Protocol Traces MediaSession AddressIndex Function

variable (suite : Suite) {Addr : Type} [DecidableEq Addr]

def view (n : MediaNode Addr) : AddressIndex SessionId Addr where
  addr id := (n.sessionsById.find id).bind getRemoteAddr
  index := n.sessionsByAddr.find

def pathOp (n : MediaNode Addr) : Event Addr → AddressIndex.Op SessionId Addr
  | .datagram data source now =>
    match (n.routeFrom suite data source now).1 with
    | .ok (.bound id _) =>
      match source with
      | .udp addr => .claim id addr
      | .tunnel _ | .link _ => .release id
    | .ok (.passedOn _ _) => .keep
    | .error _ => .keep
  | .createSession _ user _ _ _ =>
    match n.sessionsByUser.find user with
    | some old => .release old
    | none => .keep
  | .adoptSession id user _ _ _ =>
    if (n.sessionsById.find id).isSome then .keep
    else
      match n.sessionsByUser.find user with
      | some old => .release old
      | none => .keep
  | .destroySession id | .timeout id | .attachWebrtc id | .webrtcDisconnected id => .release id
  | .closeTunnel _ | .linkClosed _ => .keep
  | .webrtcConnected id remote => if (n.sessionsById.find id).isSome then .claim id remote else .keep

omit [DecidableEq Addr] in
lemma releaseDisplaced_endpoint (s : MediaSession Addr) : releaseDisplaced s.endpoint = s.getRemoteAddr := by
  unfold releaseDisplaced getRemoteAddr
  cases s.endpoint with
  | none => rfl
  | some e => cases e <;> rfl

omit [DecidableEq Addr] in
lemma view_put (n : MediaNode Addr) (id : SessionId) (s : MediaSession Addr) :
    (n.put id s).view = ⟨update n.view.addr id s.getRemoteAddr, n.view.index⟩ := by
  apply ext
  · intro other
    by_cases h : other = id
    · subst h
      simp [view, put]
    · simp [view, put, h]
  · exact fun a => rfl

variable {old s : MediaSession Addr} (n : MediaNode Addr)

lemma view_unregister (old : Option Addr) : (n.unregister old).view = ⟨n.view.addr, forget n.view.index old⟩ := by
  cases old with
  | none => exact ext (fun _ => rfl) fun a => by simp [unregister, forget]
  | some =>
    refine ext (fun _ => rfl) ?_
    simp [unregister, view, forget, eq_comm]

omit [DecidableEq Addr] in
lemma view_put_same {n : MediaNode Addr} {id : SessionId}
    (hfound : n.sessionsById.find id = some old) (hsame : s.getRemoteAddr = old.getRemoteAddr) :
    (n.put id s).view = n.view := by
  rw [view_put, hsame]
  apply ext
  · intro other
    by_cases h : other = id
    · subst h
      simp [view, hfound]
    · simp [h]
  · exact fun a => rfl

lemma view_leave {n : MediaNode Addr} {id : SessionId} (hfound : n.sessionsById.find id = some old)
    (hleft : s.getRemoteAddr = none) :
    ((n.put id s).unregister old.getRemoteAddr).view = n.view.apply (.release id) := by
  have haddr : n.view.addr id = old.getRemoteAddr := by simp [view, hfound]
  rw [view_unregister, view_put, apply, hleft, haddr]

lemma view_register (id : SessionId) (addr : Addr) :
    ({ n with sessionsByAddr := n.sessionsByAddr.set addr id } : MediaNode Addr).view =
      ⟨n.view.addr, update n.view.index addr (some id)⟩ := by
  refine ext (fun _ => rfl) ?_
  simp [view, update_apply]

lemma update_forget (index : Addr → Option SessionId) (old : Option Addr) (addr : Addr) (id : SessionId) :
    update (forget index (old.filter (· ≠ addr))) addr (some id) =
      update (forget index old) addr (some id) := by
  funext a
  by_cases h : a = addr
  · subst h
    simp
  · cases old with
    | none => rfl
    | some b =>
      rw [update_of_ne h, update_of_ne h]
      by_cases hb : b = addr
      · simp [forget, Option.filter_some, hb, Ne.symm h]
      · simp [Option.filter_some, hb]

lemma view_bindAddr {n : MediaNode Addr} {id : SessionId} {addr : Addr} (hfound : n.sessionsById.find id = some old)
    (hsame : s.endpoint = old.endpoint) : (n.bindAddr id s addr).view = n.view.apply (.claim id addr) := by
  have haddr : n.view.addr id = releaseDisplaced s.endpoint := by
    rw [hsame, releaseDisplaced_endpoint]
    simp [view, hfound]
  have hview := view_register ((n.put id { s with endpoint := some (.udp addr) }).unregister
    ((releaseDisplaced s.endpoint).filter (· ≠ addr))) id addr
  rw [view_unregister, view_put, update_forget] at hview
  rw [apply, haddr]
  exact hview

lemma view_moved {n : MediaNode Addr} {id : SessionId} (hfound : n.sessionsById.find id = some old)
    (hsame : s.endpoint = old.endpoint) :
    ∀ source, (n.moved id s source).view = n.view.apply (match source with
      | .udp addr => .claim id addr
      | .tunnel _ => .release id
      | .link _ => .release id) := by
  have hremote : s.getRemoteAddr = old.getRemoteAddr := by simp [getRemoteAddr, hsame]
  intro source
  cases source with
  | udp => exact view_bindAddr hfound hsame
  | tunnel t =>
    have hold : (s.setTunnel t).1 = old.getRemoteAddr := (releaseDisplaced_endpoint s).trans hremote
    rw [moved, hold]
    exact view_leave hfound rfl
  | link l =>
    have hclaim : (n.claim l id).2.view = n.view := by
      unfold claim
      split <;> rfl
    have hfound' : (n.claim l id).2.sessionsById.find id = some old := by
      unfold claim
      split <;> exact hfound
    rw [moved]
    rw [← hclaim]
    by_cases hlink : s.link = some l
    · -- the session is on this link already and has no address to give up
      have hnone : old.getRemoteAddr = none := by
        rw [← hremote, getRemoteAddr, endpoint_of_link hlink]
      have hold : s.setLink l = (none, s) := if_pos hlink
      rw [hold, ← hnone]
      exact view_leave hfound' (hremote.trans hnone)
    · have hold : s.setLink l = (old.getRemoteAddr, { s with endpoint := some (.link l) }) := by
        rw [setLink, if_neg hlink, ← hremote, ← releaseDisplaced_endpoint]
        rfl
      rw [hold]
      exact view_leave hfound' rfl

section

variable (id : SessionId)

lemma view_teardownSession : (n.teardownSession id).view = n.view.apply (.release id) := by
  unfold teardownSession
  cases hfound : n.sessionsById.find id with
  | none =>
    have haddr : n.view.addr id = none := by simp [view, hfound]
    refine ext ?_ ?_
    · intro other
      by_cases h : other = id
      · subst h
        simp [apply, haddr]
      · simp [apply, h]
    · simp [apply, haddr, forget]
  | some session =>
    have haddr : n.view.addr id = session.clearEndpoint.1 := by
      rw [clearEndpoint]
      dsimp only [replaceEndpoint]
      rw [releaseDisplaced_endpoint]
      simp [view, hfound]
    rw [view_unregister, apply, haddr]
    refine ext ?_ fun a => rfl
    intro other
    by_cases h : other = id
    · subst h
      simp [view]
    · simp [view, h]

lemma view_createSession (user : UserId) (ssrc : UInt32) (mediaKey : Vector UInt8 32) (room : Bool) :
    (n.createSession suite id user ssrc mediaKey room).view = n.view.apply
      (match n.sessionsByUser.find user with
        | some old => .release old
        | none => .keep) := by
  have hput : ∀ m : MediaNode Addr, (m.sessionsById.find id).isSome = false →
      ({ m.put id (.new suite user ssrc mediaKey) with
        sessionsByUser := m.sessionsByUser.set user id } : MediaNode Addr).view = m.view := by
    intro m hfree
    refine ext ?_ fun a => rfl
    intro other
    by_cases h : other = id
    · subst h
      have hnone : m.sessionsById.find other = none := by simpa using hfree
      simp [view, put, hnone, new, getRemoteAddr]
    · simp [view, put, h]
  have hrest : ∀ m : MediaNode Addr,
      (if !room || (m.sessionsById.find id).isSome then m
        else { m.put id (.new suite user ssrc mediaKey) with
          sessionsByUser := m.sessionsByUser.set user id }).view = m.view := by
    intro m
    split
    · rfl
    next hfree =>
      simp only [Bool.or_eq_true, not_or, Bool.not_eq_true] at hfree
      exact hput m hfree.2
  unfold createSession
  rw [hrest, replaceUser]
  cases n.sessionsByUser.find user with
  | none => rfl
  | some old => exact view_teardownSession _ old

lemma view_destroySession : (n.destroySession id).view = n.view.apply (.release id) := by
  have hteardown := view_teardownSession n id
  unfold destroySession
  split
  next hnone => rwa [teardownSession, hnone] at hteardown
  · exact view_teardownSession _ id

lemma view_dropEndpoint : (n.dropEndpoint id).view = n.view.apply (.release id) := by
  have hteardown := view_teardownSession n id
  unfold dropEndpoint
  split
  next hnone => rwa [teardownSession, hnone] at hteardown
  next session hfound =>
    have hold : session.clearEndpoint.1 = session.getRemoteAddr := releaseDisplaced_endpoint session
    dsimp only
    rw [hold]
    exact view_leave hfound rfl

end

omit [DecidableEq Addr] in
lemma getRemoteAddr_clearTunnel (s : MediaSession Addr) (t : MediaTunnel) :
    (s.clearTunnel t).getRemoteAddr = s.getRemoteAddr := by
  unfold clearTunnel
  split
  next htunnel =>
    obtain ⟨t', ht', -⟩ := Option.map_eq_some_iff.mp htunnel
    rw [getRemoteAddr, getRemoteAddr, endpoint_of_tunnel ht']
  · rfl

omit [DecidableEq Addr] in
lemma getRemoteAddr_clearLink (s : MediaSession Addr) (l : Link) :
    (s.clearLink l).getRemoteAddr = s.getRemoteAddr := by
  unfold clearLink
  split
  next hlink => rw [getRemoteAddr, getRemoteAddr, endpoint_of_link hlink]
  · rfl

lemma view_datagram (data : Bytes) (source : PacketSource Addr) (now : Int64) :
    (n.routeFrom suite data source now).2.view = n.view.apply (n.pathOp suite (.datagram data source now)) := by
  simp only [pathOp]
  cases hrouted : (n.routeFrom suite data source now).1 with
  | error => rw [routeFrom_error suite hrouted, apply]
  | ok routed =>
    cases routed with
    | bound id unixMs =>
      obtain ⟨packet, session, -, haccepts, hmoved⟩ := routeFrom_bound suite hrouted
      have hview := view_moved (s := { session with lastBindMs := unixMs }) haccepts.found rfl source
      rw [hmoved, hview]
    | passedOn =>
      obtain ⟨packet, -, session, hresolve, hpassed | ⟨-, hsame⟩⟩ := routeFrom_passedOn suite hrouted
      · rw [hpassed.2.2]
        exact view_put_same (resolve_ok hresolve).1 rfl
      · rw [hsame, apply]

lemma view_step (e : Event Addr) : (n.step suite e).view = n.view.apply (n.pathOp suite e) := by
  cases e with
  | datagram data source now => exact view_datagram suite n data source now
  | createSession id user ssrc mediaKey room => exact view_createSession suite n id user ssrc mediaKey room
  | adoptSession id user ssrc mediaKey room =>
    simp only [step, pathOp, adoptSession]
    split
    · rfl
    · exact view_createSession suite n id user ssrc mediaKey room
  | destroySession id | timeout id => exact view_destroySession n id
  | closeTunnel tunnel =>
    simp only [step, pathOp, closeTunnel]
    split
    · rfl
    next hfound => exact view_put_same hfound (getRemoteAddr_clearTunnel _ tunnel)
  | linkClosed link =>
    simp only [step, pathOp, linkClosed]
    split
    · rfl
    · split
      · rfl
      next hfound => exact view_put_same hfound (getRemoteAddr_clearLink _ link)
  | attachWebrtc id | webrtcDisconnected id => exact view_dropEndpoint n id
  | webrtcConnected id =>
    simp only [step, pathOp, webrtcConnected]
    cases hfound : n.sessionsById.find id with
    | none => rfl
    | some => exact view_bindAddr hfound rfl

def IndexAgrees (n : MediaNode Addr) : Prop :=
  ∀ addr id, n.sessionsByAddr.find addr = some id ↔
    ∃ session, n.sessionsById.find id = some session ∧ session.endpoint = some (.udp addr)

/-- The event gives a session a UDP address at which another live session is bound. -/
def TakesOver (n : MediaNode Addr) (e : Event Addr) : Prop :=
  ∃ id addr, n.pathOp suite e = .claim id addr ∧
    ∃ other session, n.sessionsById.find other = some session ∧ session.endpoint = some (.udp addr) ∧ other ≠ id

omit [DecidableEq Addr] in
lemma view_addr {n : MediaNode Addr} {id : SessionId} {addr : Addr} :
    n.view.addr id = some addr ↔
      ∃ session, n.sessionsById.find id = some session ∧ session.endpoint = some (.udp addr) := by
  rw [view, Option.bind_eq_some_iff]
  refine exists_congr fun session => and_congr_right fun _ => ?_
  refine ⟨endpoint_of_getRemoteAddr, ?_⟩
  intro h
  rw [getRemoteAddr, h]

omit [DecidableEq Addr] in
lemma agrees_view {n : MediaNode Addr} : n.view.Agrees ↔ n.IndexAgrees :=
  forall_congr' fun _ => forall_congr' fun _ => iff_congr Iff.rfl view_addr

lemma undisputed_iff {n : MediaNode Addr} {e : Event Addr} :
    n.view.Undisputed (n.pathOp suite e) ↔ ¬ n.TakesOver suite e := by
  unfold TakesOver
  cases hop : n.pathOp suite e with
  | keep | release => simp [Undisputed]
  | claim id addr =>
    simp only [Undisputed, view_addr]
    constructor
    · rintro hmine ⟨_, _, hclaim, other, session, hfound, hend, hne⟩
      cases hclaim
      exact hne (hmine other ⟨session, hfound, hend⟩)
    · rintro hnone other ⟨session, hfound, hend⟩
      by_contra hne
      exact hnone ⟨id, addr, rfl, other, session, hfound, hend, hne⟩

omit [DecidableEq Addr] in
lemma agrees_init (requirePacketAuth : Bool) : (init requirePacketAuth : MediaNode Addr).view.Agrees := by
  intro addr id
  simp [view, init]

lemma sound_run (requirePacketAuth : Bool) (es : List (Event Addr)) :
    (es.foldl (step suite) (init requirePacketAuth)).view.Sound :=
  AddressIndex.sound_run (view_step suite) es (agrees_init requirePacketAuth).sound

theorem index_agrees_iff (requirePacketAuth : Bool) (es : List (Event Addr)) :
    Meets (step suite) (fun n e => (n.step suite e).IndexAgrees) (init requirePacketAuth) es ↔
      Meets (step suite) (fun n e => ¬ n.TakesOver suite e) (init requirePacketAuth) es := by
  have hiff := meets_agrees_iff (view_step suite) (agrees_init requirePacketAuth) es
  simp only [agrees_view, undisputed_iff] at hiff
  exact hiff

/-- Also where a session has taken over the address of another, the index names no session that is gone or
bound elsewhere. -/
theorem indexed_sessions_bound (requirePacketAuth : Bool) (es : List (Event Addr)) :
    let n := es.foldl (step suite) (init requirePacketAuth)
    n.sessionsByAddr.All fun addr id =>
      ∃ session, n.sessionsById.find id = some session ∧ session.endpoint = some (.udp addr) := by
  intro n addr id hindexed
  exact view_addr.mp (sound_run suite requirePacketAuth es addr id hindexed)

def bindPacket (id : SessionId) (ssrc : UInt32) (unixMs : Int64) (nonce : UInt64) (keys : MediaKeys) : Bytes :=
  (AurixPacket.new (.new .sessionBind 0 0 ssrc)
    (id.asBytes ++ putU64 unixMs.toUInt64 ++ putU64 nonce)).encodeAuthenticated suite keys

def sampleKey (b : UInt8) : Vector UInt8 32 := Vector.replicate 32 b

def takeover : List (Event ℕ) :=
  [.createSession 1 11 5 (sampleKey 1) true, .createSession 2 12 6 (sampleKey 2) true,
    .datagram (bindPacket .masks 1 5 100 0 (.derive .masks (sampleKey 1).toList)) (.udp 10) 100,
    .datagram (bindPacket .masks 2 6 100 0 (.derive .masks (sampleKey 2).toList)) (.udp 10) 100,
    .destroySession 1]

theorem takeover_unregisters_bound_session :
    let n := takeover.foldl (step .masks) (init true)
    (n.sessionsById.find 2).bind getRemoteAddr = some 10 ∧ n.sessionsByAddr.find 10 = none := by
  decide +kernel

end AurixVoice.Media.MediaNode
